import Equirec.Checker
import Equirec.Checker.Check
import Equirec.Checker.Event
import Equirec.CommandLine
import Equirec.CommandLine.FileTree
import Equirec.Comparison
import Equirec.Comparison.Equality
import Equirec.Comparison.Layer
import Equirec.Comparison.Subtyping
import Equirec.Double
import Equirec.Environment
import Equirec.Fault
import Equirec.Fault.Render
import Equirec.Grammar
import Equirec.Main
import Equirec.Parser
import Equirec.Parser.Terms
import Equirec.Parser.Types
import Equirec.Scope
import Equirec.Source
import Equirec.Span
import Equirec.Term
import Equirec.Text.Blank
import Equirec.Text.Hidden
import Equirec.Text.Line
import Equirec.Text.Quoted
import Equirec.Token
import Equirec.Token.Cursor
import Equirec.Token.Scan
import Equirec.Token.Stream
import Equirec.Ty
import Equirec.Ty.Alpha
import Equirec.Ty.Render
import Equirec.Ty.Simplify
import Equirec.Ty.Substitution
import Equirec.Variant
import Equirec.Proofs.Acceptance
import Equirec.Proofs.Agreement
import Equirec.Proofs.Alike
import Equirec.Proofs.Annotations
import Equirec.Proofs.Bounds
import Equirec.Proofs.Capture
import Equirec.Proofs.Carets
import Equirec.Proofs.Confinement
import Equirec.Proofs.Conservation
import Equirec.Proofs.Decision
import Equirec.Proofs.Declarations
import Equirec.Proofs.Departure
import Equirec.Proofs.Derivation
import Equirec.Proofs.Diagnosis
import Equirec.Proofs.Endless
import Equirec.Proofs.Equivalence
import Equirec.Proofs.Exposure
import Equirec.Proofs.Finiteness
import Equirec.Proofs.Following
import Equirec.Proofs.Foresight
import Equirec.Proofs.Formation
import Equirec.Proofs.Framing
import Equirec.Proofs.Gating
import Equirec.Proofs.Invariance
import Equirec.Proofs.Joins
import Equirec.Proofs.KnownTokens
import Equirec.Proofs.Layered
import Equirec.Proofs.Layout
import Equirec.Proofs.Lexemes
import Equirec.Proofs.Lines
import Equirec.Proofs.Machine
import Equirec.Proofs.Members
import Equirec.Proofs.Nameless
import Equirec.Proofs.Names
import Equirec.Proofs.Nesting
import Equirec.Proofs.Order
import Equirec.Proofs.Outcomes
import Equirec.Proofs.Placement
import Equirec.Proofs.Printing
import Equirec.Proofs.Programs
import Equirec.Proofs.Reach
import Equirec.Proofs.Reannotation
import Equirec.Proofs.Renaming
import Equirec.Proofs.Rendering
import Equirec.Proofs.Rounds
import Equirec.Proofs.Safety
import Equirec.Proofs.Scanning
import Equirec.Proofs.Scoping
import Equirec.Proofs.SelfReference
import Equirec.Proofs.Settling
import Equirec.Proofs.Simplifying
import Equirec.Proofs.Spelling
import Equirec.Proofs.Steps
import Equirec.Proofs.Strain
import Equirec.Proofs.Tracing
import Equirec.Proofs.Tree
import Equirec.Proofs.Typing
import Equirec.Proofs.Unnamed
import Equirec.Proofs.Viability
import Equirec.Proofs.WellFormed
import Equirec.Proofs.WrittenTerms
import Equirec.Proofs.WrittenTypes
