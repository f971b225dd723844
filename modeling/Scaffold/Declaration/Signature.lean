import Scaffold.UnionType
/-!
The facts of a declaration that generated text is made from.
-/
namespace Scaffold

def Php.ClassKeyword.text : Php.ClassKeyword → String
  | plain => "class"
  | abstract => "abstract class"
  | final => "final class"
  | interface => "interface"
  | trait => "trait"
  | enum => "enum"

structure ClassSignature where
  name : String
  keyword : Php.ClassKeyword
  deriving DecidableEq, Repr

structure ConstantSignature where
  name : String
  hint : String
  deriving DecidableEq, Repr

structure PropertySignature where
  name : String
  types : UnionType
  deriving DecidableEq, Repr

structure ParameterSignature where
  name : String
  hint : String
  deriving DecidableEq, Repr

structure FunctionSignature where
  name : String
  parameters : List ParameterSignature
  returnHint : String
  throws : List String
  deriving DecidableEq, Repr

inductive Signature where
  | classLike (s : ClassSignature)
  | constant (s : ConstantSignature)
  | property (s : PropertySignature)
  | function (s : FunctionSignature)
  deriving DecidableEq, Repr

def Signature.name : Signature → String
  | classLike s => s.name
  | constant s => s.name
  | property s => s.name
  | function s => s.name

end Scaffold
