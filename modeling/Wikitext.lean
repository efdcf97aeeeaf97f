import Wikitext.Function.Name
import Wikitext.Proofs.Escape.PairList
import Wikitext.Proofs.Sort.Mirror
import Wikitext.Proofs.Sort.NumericKey
import Wikitext.Proofs.Sort.KeyBlock
import Wikitext.Proofs.Sort.DecimalOrder
import Wikitext.Proofs.Sort.Successive
import Wikitext.Proofs.Function.Dictionary
import Wikitext.Proofs.Number.Grammar
import Wikitext.Proofs.Number.Rounding
import Wikitext.Proofs.Number.Reading
import Wikitext.Proofs.Escape.Join
import Wikitext.Proofs.Function.Token
import Wikitext.Proofs.Function.Choice
import Wikitext.Proofs.Function.Content
import Wikitext.Proofs.Pattern.Successive
import Wikitext.Proofs.Pattern.Escaped
import Wikitext.Proofs.Sort.Edit
import Wikitext.Proofs.Sort.Keyword
import Wikitext.Proofs.Function.Alternative
