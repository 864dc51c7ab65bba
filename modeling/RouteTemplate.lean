import RouteTemplate.Matching.Journal
import RouteTemplate.Matching.Matcher
import RouteTemplate.Proofs.Regex.Outcomes
import RouteTemplate.Proofs.Regex.Spelling
import RouteTemplate.Proofs.Template.Language
import RouteTemplate.Proofs.Template.Scan
import RouteTemplate.Proofs.Template.Resolution
import RouteTemplate.Proofs.Template.Fitting
import RouteTemplate.Proofs.Regex.Reading
import RouteTemplate.Proofs.Template.RouteText
import RouteTemplate.Proofs.Matching.Compilation
import RouteTemplate.Proofs.Fields
import RouteTemplate.Proofs.Matching.Joining
import RouteTemplate.Proofs.Template.Segments
import RouteTemplate.Proofs.Text.PercentEncoding
import RouteTemplate.Proofs.Matching.Building
import RouteTemplate.Proofs.Matching.InTurn
import RouteTemplate.Proofs.Matching.Agreement
import RouteTemplate.Proofs.Regex.Extending
import RouteTemplate.Proofs.Template.FinalSlash
import RouteTemplate.Proofs.Matching.TrailingSlash
import RouteTemplate.Proofs.Calendar.MailDate
import RouteTemplate.Proofs.Checking.Unconstrained
import RouteTemplate.Proofs.Template.DateText
import RouteTemplate.Proofs.Matching.Refusal
import RouteTemplate.Proofs.Matching.Reaching
import RouteTemplate.Proofs.Matching.Boundary
import RouteTemplate.Proofs.Checking.Admission
import RouteTemplate.Proofs.Matching.Soundness
import RouteTemplate.Proofs.Value.Equality
import RouteTemplate.Proofs.Matching.Updating
import RouteTemplate.Proofs.Number.Binary64
import RouteTemplate.Proofs.Value.Comparison
import RouteTemplate.Proofs.Checking.Likeness
import RouteTemplate.Proofs.Matching.Likeness
import RouteTemplate.Proofs.Matching.Merging
import RouteTemplate.Proofs.Text.PercentDecoding
import RouteTemplate.Proofs.Number.Numeral
import RouteTemplate.Proofs.Matching.SoleReference
import RouteTemplate.Proofs.Matching.Enumeration
import RouteTemplate.Proofs.Number.Nearest
import RouteTemplate.Proofs.Number.Decimal
import RouteTemplate.Proofs.Number.Rendering
import RouteTemplate.Proofs.Matching.Converted
import RouteTemplate.Proofs.Calendar.Excess
import RouteTemplate.Proofs.Checking.BestEffort
import RouteTemplate.Proofs.Number.Signed
import RouteTemplate.Proofs.Template.WrittenDate
import RouteTemplate.Proofs.Checking.Denotation
import RouteTemplate.Proofs.Matching.Calls
import RouteTemplate.Proofs.Checking.Caseless
import RouteTemplate.Proofs.Matching.Caseless
import RouteTemplate.Proofs.Matching.Journal
import RouteTemplate.Proofs.Parameter.Restating
import RouteTemplate.Proofs.Parameter.Listing
import RouteTemplate.Proofs.Checking.Tightening
import RouteTemplate.Proofs.Matching.Tightening
import RouteTemplate.Proofs.Template.Marks
import RouteTemplate.Proofs.Regex.Passing
import RouteTemplate.Proofs.Template.MarkExpression
import RouteTemplate.Proofs.Template.ClosingSlash
