import SequenceNotation.Pattern.Definition
import SequenceNotation.Pattern.Reading
import SequenceNotation.Text.Bytes

/-!
# Segments

The notation is given by named patterns, the segments: the keys of modifiers, the boundaries that end a
token, the marks in front of the kinds of start, the bodies of these kinds, and the values of modifiers.
A delimiter of the user's choice counts as a boundary too.
-/

namespace SequenceNotation.Notation

open SequenceNotation.Text SequenceNotation.Pattern

/-- The name of the segment for the user's delimiter. -/
def delimiterName : String :=
  "custom_delimiter"

/-- Parts that other segments share. -/
def sharedDefinitions : Definitions :=
  [("sign", "[+-]"),
   ("number", "{{sign}}? \\d+ (?: \\. \\d+ )?")]

/-- The keys of modifiers; `##` stands in front of `#`. -/
def keyDefinitions : Definitions :=
  [("step_key", "steps?:"),
   ("format_key", "format: | ~"),
   ("frequency_key", "freq(?:uency)?: | \\*"),
   ("startover_key", "start(?:again|over): | ##"),
   ("repetition_key", "rep(?:eat|etition)?: | #"),
   ("expression_key", "expr(?:ession)?: | ::"),
   ("stop_key", "stop(?:expr(?:ession)?|if)?: | @"),
   ("options_key", "opt(?:ion(?:s)?)?: | \\?"),
   ("modifier_start",
    "{{step_key}} | {{format_key}} | {{frequency_key}} | {{startover_key}}
     | {{repetition_key}} | {{expression_key}} | {{stop_key}} | {{options_key}}"),
   ("modifier",
    "(?P<step> {{step_key}} )
     | (?P<format> {{format_key}} )
     | (?P<frequency> {{frequency_key}} )
     | (?P<startover> {{startover_key}} )
     | (?P<repetition> {{repetition_key}} )
     | (?P<expression> {{expression_key}} )
     | (?P<stop> {{stop_key}} )
     | (?P<options> {{options_key}} )")]

/-- What ends a token.  The body of an expression may hold the characters of modifier keys. -/
def boundaryDefinitions (delimiter : List Char) : Definitions :=
  [(delimiterName, String.ofList delimiter),
   ("boundary", "\\s | {{custom_delimiter}} | {{modifier_start}}"),
   ("expr_boundary", "\\s | {{custom_delimiter}}")]

/-- The marks in front of the kinds of start. -/
def markDefinitions : Definitions :=
  [("date_prefix", "^ (?: % | date: )"),
   ("own_prefix", "^ (?: own(?:seq(?:uence)?)?: | \\[ )"),
   ("predef_prefix", "^ (?: ; | predef(?:ined)?(?:seq(?:uence)?)?: )"),
   ("expr_prefix", "^ (?: \\| | expr(?:ession)?: )"),
   ("func_prefix", "^ (?: = | func(?:tion)?: )")]

/-- The bodies of the kinds of start. -/
def bodyDefinitions : Definitions :=
  [("decimal_body",
    "^ (?P<sign> {{sign}} )?
     (?: (?P<radix> 0[xXoObB] ) (?P<radix_digits> [0-9a-fA-F]+ )
       | (?P<int> \\d+ ) (?: \\. (?P<frac> \\d+ ) )? )
     (?: (?P<random> [rR] ) (?P<random_sign> {{sign}} )?
         (?P<magnitude> \\d+ (?: \\. (?P<random_frac> \\d+ ) )? )? )?
     $"),
   ("alpha_body", "^ (?P<word> \\p\x7bL\x7d+ ) $"),
   ("date_body",
    "^ (?: (?P<year> \\d\x7b4\x7d | \\d\x7b2\x7d )
         (?: [-./] (?P<month> \\d\x7b1,2\x7d )
             (?: [-./] (?P<day> \\d\x7b1,2\x7d ) )? )? )?
     $"),
   ("own_body", "^ (?: (?P<list> \\[ .* \\] ) (?P<start> \\d+ )? | (?P<bare> [^\\[\\]]+ ) ) $"),
   ("predef_body",
    "^ (?: (?P<number> \\d+ ) | \"(?P<dquoted> [^\"]* )\" | '(?P<squoted> [^']* )'
       | (?P<text> .+ ) ) $"),
   ("func_body", "^ (?P<number> \\d+ )? (?: , (?P<start_at> {{number}} ) )? $"),
   ("expr_body", "^ (?: \"(?P<dquoted> .* )\" | '(?P<squoted> .* )' | (?P<bare> .+ ) ) $")]

/-- The values of modifiers. -/
def valueDefinitions : Definitions :=
  [("step_value", "^ (?P<amount> {{number}} ) (?P<unit> [dwmyDWMY] )? $"),
   ("count_value", "^ \\d+ $"),
   ("bare_step", "^ {{number}} $")]

/-- The definitions of all segments; without a delimiter its segment matches nothing. -/
def segmentDefinitions (delimiter : Option String) : Definitions :=
  let delimiter := match delimiter with
    | some text => if text = "" then matchesNothing else escapeText text.toList
    | none => matchesNothing
  sharedDefinitions ++ keyDefinitions ++ boundaryDefinitions delimiter ++ markDefinitions ++
    bodyDefinitions ++ valueDefinitions

/-- A segment with its resolved pattern text. -/
structure Segment where
  name : String
  text : List Char
  pattern : Pattern

/-- All segments under one delimiter. -/
structure Segments where
  entries : List Segment

namespace Segments

/-- Resolves and reads every definition.  A text that is no pattern matches nothing. -/
def ofDelimiter (delimiter : Option String) : Segments :=
  { entries := (resolveDefinitions (segmentDefinitions delimiter)).map fun (name, text) =>
      { name, text, pattern := (readPattern? text).getD .nothing } }

def segment? (segments : Segments) (name : String) : Option Segment :=
  segments.entries.find? fun segment => segment.name = name

/-- The resolved pattern text of a segment. -/
def text? (segments : Segments) (name : String) : Option (List Char) :=
  (segments.segment? name).map (·.text)

/-- The pattern of a segment; an unknown name matches nothing. -/
def pattern (segments : Segments) (name : String) : Pattern :=
  ((segments.segment? name).map (·.pattern)).getD .nothing

/-- The first match of a segment in a text. -/
def find? (segments : Segments) (name : String) (text : List Char) : Option Found :=
  (segments.pattern name).find? text

/-- The byte offset of the first match of a segment at or behind another one; the end of the text if
there is none. -/
def offsetAfter (segments : Segments) (name : String) (text : List Char) (offset : Nat) : Nat :=
  if byteLength text ≤ offset then byteLength text
  else
    let (front, back) := splitAtByte offset text
    match (segments.pattern name).findFrom? front.length back with
    | some found => byteLength front + byteLength found.before
    | none => byteLength text

/-- The first place at or behind an offset of a masked text where a token ends. -/
def boundaryAfter (segments : Segments) (masked : List Char) (offset : Nat) : Nat :=
  segments.offsetAfter "boundary" masked offset

/-- The first place where the body of an expression ends: only blanks and the delimiter end it. -/
def expressionBoundaryAfter (segments : Segments) (masked : List Char) (offset : Nat) : Nat :=
  segments.offsetAfter "expr_boundary" masked offset

end Segments

end SequenceNotation.Notation
