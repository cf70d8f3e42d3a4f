import Dialogue.Main
import Dialogue.Proofs.Body.Nesting
import Dialogue.Proofs.Node.RoundTrip
import Dialogue.Proofs.Session.Shape
import Dialogue.Proofs.Variables.Saved
import Dialogue.Proofs.Walk.Choices
import Dialogue.Proofs.Program.Jumps
import Dialogue.Proofs.Session.Course
import Dialogue.Proofs.Session.Standing
import Dialogue.Proofs.Session.WellFormed
import Dialogue.Proofs.Body.Template
import Dialogue.Proofs.Session.Returns
import Dialogue.Proofs.Session.Visits
import Dialogue.Proofs.Node.Blocks
import Dialogue.Proofs.Body.OptionCondition
import Dialogue.Proofs.Format.Grammar
import Dialogue.Proofs.Format.Placing
import Dialogue.Proofs.Format.Result
import Dialogue.Proofs.Body.Account
import Dialogue.Proofs.Session.Segments
import Dialogue.Proofs.Body.Unsplit
import Dialogue.Proofs.Session.Evaluation
import Dialogue.Proofs.Expr.Spelling
import Dialogue.Proofs.Node.Warnings
import Dialogue.Proofs.Program.Modular
import Dialogue.Proofs.Session.Level
import Dialogue.Proofs.Walk.Left
