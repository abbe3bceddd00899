import SmallScheme.Main
import SmallScheme.Proofs.Dialogue.Transcript
import SmallScheme.Proofs.Evaluation.Arithmetic
import SmallScheme.Proofs.Evaluation.Cause
import SmallScheme.Proofs.Evaluation.Coincidence
import SmallScheme.Proofs.Evaluation.Context
import SmallScheme.Proofs.Evaluation.Lists
import SmallScheme.Proofs.Evaluation.Origin
import SmallScheme.Proofs.Evaluation.Reach
import SmallScheme.Proofs.Evaluation.Renaming
import SmallScheme.Proofs.Form.Exceeding
import SmallScheme.Proofs.Form.Lookahead
import SmallScheme.Proofs.Outcome.Agreement
import SmallScheme.Proofs.Outcome.Equality
import SmallScheme.Proofs.Procedure.Discipline
import SmallScheme.Proofs.Procedure.Order
import SmallScheme.Proofs.Session.Scoping
import SmallScheme.Proofs.Token.Numerals
import SmallScheme.Proofs.Token.Readings
import SmallScheme.Proofs.Token.Text
import SmallScheme.Proofs.Value.RoundTrip
