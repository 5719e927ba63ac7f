import InterfaceRecord.Catalog
import InterfaceRecord.Decimal.Binary64
import InterfaceRecord.Decimal.Shortest
import InterfaceRecord.Derivation
import InterfaceRecord.Diagnostic
import InterfaceRecord.Graph
import InterfaceRecord.Json.Reader
import InterfaceRecord.NameScheme
import InterfaceRecord.Proofs.Account
import InterfaceRecord.Proofs.AddedTrait
import InterfaceRecord.Proofs.Correspondence
import InterfaceRecord.Proofs.Course
import InterfaceRecord.Proofs.DeclarationOrder
import InterfaceRecord.Proofs.Declarations
import InterfaceRecord.Proofs.Derivability
import InterfaceRecord.Proofs.Ending
import InterfaceRecord.Proofs.Examination
import InterfaceRecord.Proofs.Failure
import InterfaceRecord.Proofs.Finding
import InterfaceRecord.Proofs.Firsts
import InterfaceRecord.Proofs.Inheritance
import InterfaceRecord.Proofs.InternalError
import InterfaceRecord.Proofs.ItemNames
import InterfaceRecord.Proofs.JoinedPath
import InterfaceRecord.Proofs.Likeness
import InterfaceRecord.Proofs.Linking
import InterfaceRecord.Proofs.Matching
import InterfaceRecord.Proofs.Mirror
import InterfaceRecord.Proofs.Moments
import InterfaceRecord.Proofs.Outcome
import InterfaceRecord.Proofs.OwnModule
import InterfaceRecord.Proofs.Preorder
import InterfaceRecord.Proofs.Reach
import InterfaceRecord.Proofs.Relinking
import InterfaceRecord.Proofs.Relocation
import InterfaceRecord.Proofs.Rendering
import InterfaceRecord.Proofs.Session
import InterfaceRecord.Proofs.SourceOrder
import InterfaceRecord.Proofs.Strictness
import InterfaceRecord.Proofs.Surveying
import InterfaceRecord.Proofs.Sweep
import InterfaceRecord.QualifiedName
import InterfaceRecord.Record
import InterfaceRecord.Settings
import InterfaceRecord.Settings.Reader
import InterfaceRecord.Source.Folder
import InterfaceRecord.Source.Grammar.Attribute
import InterfaceRecord.Source.Grammar.Expr
import InterfaceRecord.Source.Grammar.File
import InterfaceRecord.Source.Grammar.Generics
import InterfaceRecord.Source.Grammar.Items
import InterfaceRecord.Source.Grammar.Nested
import InterfaceRecord.Source.Grammar.Parser
import InterfaceRecord.Source.Grammar.Path
import InterfaceRecord.Source.Grammar.Pattern
import InterfaceRecord.Source.Grammar.Type
import InterfaceRecord.Source.Item
import InterfaceRecord.Source.Lexer
import InterfaceRecord.Source.Literal
import InterfaceRecord.Source.Printer
import InterfaceRecord.Source.Token
import InterfaceRecord.Table
import InterfaceRecord.Text.Blank
import InterfaceRecord.Text.Identifier
import InterfaceRecord.Text.IdentifierTable
import InterfaceRecord.Text.Quoted
import InterfaceRecord.Text.UnprintableTable
import InterfaceRecord.Trait.Entry
import InterfaceRecord.Trait.File
import InterfaceRecord.Trait.Link
import InterfaceRecord.Trait.Survey
import InterfaceRecord.Traversal.Basic
import InterfaceRecord.Traversal.Event
import InterfaceRecord.Wavering
import InterfaceRecord.Proofs.UsedNames
import InterfaceRecord.Proofs.FirstValues
import InterfaceRecord.Proofs.Positions
import InterfaceRecord.Proofs.Handles
import InterfaceRecord.Proofs.Histories
import InterfaceRecord.Proofs.Compacting
import InterfaceRecord.Proofs.Ancestors
import InterfaceRecord.Proofs.Omission
import InterfaceRecord.Proofs.Scanning
import InterfaceRecord.Proofs.Numerals
import InterfaceRecord.Proofs.Quoting
import InterfaceRecord.Proofs.Leaves
import InterfaceRecord.Proofs.Legibility
import InterfaceRecord.Proofs.Rereading
import InterfaceRecord.Proofs.Confinement
import InterfaceRecord.Proofs.LastSupertype
import InterfaceRecord.Proofs.Titles
import InterfaceRecord.Proofs.SupertypeOrder
import InterfaceRecord.Proofs.EventLog
import InterfaceRecord.Proofs.Splitting
import InterfaceRecord.Proofs.UnitType
import InterfaceRecord.Proofs.Verdicts
import InterfaceRecord.Proofs.Occurrences
