import Wikitext.Function.Choice
import Wikitext.Function.Content
import Wikitext.Function.Redirect
import Wikitext.Function.Switch
import Wikitext.Function.Token

/-! The functions under the names by which pages call them. Parser functions take positional
arguments, tag functions the text between their tags. -/

namespace Wikitext

/-- What a page receives from a function. -/
structure Rendered where
  text : Text
  noparse : Bool
deriving DecidableEq

/-- Text that the page reads again as markup. -/
def Rendered.markup (text : Text) : Rendered :=
  ⟨text, false⟩

inductive ParserFunction where
  | trim
  | uesc
  | uescnowiki
  | trimuesc
  | ueif
  | or
  | ueifeq
  | token
  | tokenif
  | ueswitch
  | follow
deriving DecidableEq

namespace ParserFunction

def ofName? : String → Option ParserFunction
  | "trim" => some trim
  | "uesc" => some uesc
  | "uescnowiki" => some uescnowiki
  | "trimuesc" => some trimuesc
  | "ueif" => some ueif
  | "or" => some or
  | "ueifeq" => some ueifeq
  | "token" => some token
  | "tokenif" => some tokenif
  | "ueswitch" => some ueswitch
  | "follow" => some follow
  | _ => none

def text : ParserFunction → List Text → Script Text
  | trim => trimArgument
  | uesc => unescapeTrimmed
  | uescnowiki => unescapeNowiki
  | trimuesc => trimUnescaped
  | ueif => chooseNonempty
  | or => chooseFirst
  | ueifeq => chooseEqual
  | token => substituteToken
  | tokenif => substituteTokenIf
  | ueswitch => switch
  | follow => followRedirect

def render (f : ParserFunction) (args : List Text) : Script Rendered := do
  return .markup (← f.text args)

end ParserFunction

inductive TagFunction where
  | esc
  | linkpage
  | linktext
deriving DecidableEq

namespace TagFunction

def ofName? : String → Option TagFunction
  | "esc" => some esc
  | "linkpage" => some linkpage
  | "linktext" => some linktext
  | _ => none

def text : TagFunction → Text → Script Text
  | esc => escapeContent
  | linkpage => linkPages
  | linktext => linkLabels

def render (f : TagFunction) (content : Text) : Script Rendered := do
  return .markup (← f.text content)

end TagFunction

end Wikitext
