import Scaffold.Php.Grammar.Statement
import Scaffold.Php.Token.Scan
/-!
From source text to a syntax tree.
-/
namespace Scaffold.Php

def Rules.upTo : Nat → Rules
  | 0 => ⟨fun _ => Reader.fail, Reader.fail⟩
  | n + 1 =>
      let r := upTo n
      ⟨Grammar.expression r, Grammar.statement r⟩

/-- Reads a whole file. A fault between two statements ends it. Every construct holds a token of its
own besides those nested in it, so the number of items bounds the depth. -/
def Program.parse (source : String) : Program :=
  let items := items source
  let start : Cursor := ⟨items, items.length, false, 0, 0⟩
  let look : Reader (Option Kind) := do return (← Reader.absorb Reader.peek).join
  let file := Reader.recovering look (fun _ => false)
    (Grammar.statement (Rules.upTo items.length)) (items.length + 1)
  match file start with
  | .kept statements c => ⟨statements, c.faulty⟩
  | .lost c => ⟨[], c.faulty⟩

end Scaffold.Php
