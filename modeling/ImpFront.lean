import ImpFront.Node.Equality
import ImpFront.Node.Outline
import ImpFront.Workbench
import ImpFront.Proofs.Lifecycle
import ImpFront.Proofs.Typing
import ImpFront.Proofs.Values
import ImpFront.Proofs.Interning
import ImpFront.Proofs.Nodes
import ImpFront.Proofs.Settled
import ImpFront.Proofs.Handles
import ImpFront.Proofs.Headline
import ImpFront.Proofs.Layout
import ImpFront.Proofs.OutlineText
import ImpFront.Proofs.Journal
import ImpFront.Proofs.Replay
import ImpFront.Proofs.Reserved
import ImpFront.Proofs.Observation
import ImpFront.Proofs.Assignments
import ImpFront.Proofs.Unevaluated
import ImpFront.Proofs.Independence
import ImpFront.Proofs.Linking
import ImpFront.Proofs.TypeBinding
import ImpFront.Proofs.Accounts
import ImpFront.Proofs.Numerals
import ImpFront.Proofs.ExpressionTypes
import ImpFront.Proofs.Indentation
import ImpFront.Proofs.Highlighting
import ImpFront.Proofs.Summaries
