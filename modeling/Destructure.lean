import Destructure.Main
import Destructure.Pattern.Printer
import Destructure.Proofs.Limits
import Destructure.Proofs.Pattern.Equality
import Destructure.Proofs.Pattern.Display
import Destructure.Proofs.Pattern.Nesting
import Destructure.Proofs.Text.Joining
import Destructure.Proofs.Json.Reader
import Destructure.Proofs.Value.Literal
import Destructure.Proofs.CommandLine.Agreement
import Destructure.Proofs.Pattern.Refusal
import Destructure.Proofs.Text.Cuts
import Destructure.Proofs.Pattern.Flattening
import Destructure.Proofs.Number.ExtendedReal
import Destructure.Proofs.Number.Literal
import Destructure.Proofs.Pattern.Descent
import Destructure.Proofs.Dispatcher.Recursion
import Destructure.Proofs.Bindings.Views
import Destructure.Proofs.Limits.LevelBound
import Destructure.Proofs.Value.Display
