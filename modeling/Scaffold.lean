import Scaffold.Server.Session
import Scaffold.Json.Writer
import Scaffold.Proofs.Dialog
import Scaffold.Proofs.Draft
import Scaffold.Proofs.Atomicity
import Scaffold.Proofs.Insertion
import Scaffold.Proofs.Choice
import Scaffold.Proofs.Placement
import Scaffold.Proofs.Template
import Scaffold.Proofs.WholeLines
import Scaffold.Proofs.Batch
import Scaffold.Proofs.DocBatch
import Scaffold.Proofs.Names
import Scaffold.Proofs.OneLine
import Scaffold.Proofs.Recognition
import Scaffold.Proofs.AccessorLines
import Scaffold.Proofs.AccessorBatch
import Scaffold.Proofs.Throws
import Scaffold.Proofs.Named
import Scaffold.Proofs.Reports
import Scaffold.Proofs.Offers
import Scaffold.Proofs.DocAgain
import Scaffold.Proofs.History
import Scaffold.Proofs.EffectiveSettings
import Scaffold.Proofs.DocumentStore
import Scaffold.Proofs.Reading
import Scaffold.Proofs.ClassReading
import Scaffold.Proofs.PropertyLine
import Scaffold.Proofs.ConstructorText
import Scaffold.Proofs.ConstructorSignature
import Scaffold.Proofs.BodyThrows
import Scaffold.Proofs.Bytes
import Scaffold.Proofs.Simultaneous
import Scaffold.Proofs.Picking
import Scaffold.Proofs.OpeningTag
import Scaffold.Proofs.TypeMeaning
import Scaffold.Proofs.Unambiguous
import Scaffold.Proofs.OwnMethod
import Scaffold.Proofs.LastWriter
import Scaffold.Proofs.RelativePath
import Scaffold.Proofs.Namespaces
import Scaffold.Proofs.Respelling
import Scaffold.Proofs.DocComment
import Scaffold.Proofs.FirstIcon
import Scaffold.Proofs.RequiredVersion
import Scaffold.Proofs.ConstructorLayout
import Scaffold.Proofs.UnfinishedLine
import Scaffold.Proofs.LineViews
import Scaffold.Proofs.DirectorySpelling
import Scaffold.Proofs.SurroundingBlanks
