/-!
# What can be wrong with a YAML text

A text may not be YAML, or it may hold something else than what is asked of it.
-/

namespace BindingGraph.Yaml

/-- What is wrong. -/
inductive Fault where
  | forbiddenCharacter
  | strayCharacter
  | unfinishedKey
  | misplacedEntry
  | misplacedKey
  | misplacedValue
  | badName
  | badTag
  | badDirective
  | badBlockHeader
  | tabInIndentation
  | documentMarkInQuotes
  | openQuotes
  | badEscape
  | colonInFlow
  | nodeExpected
  | entryExpected
  | keyExpected
  | separatorExpected
  | documentExpected
  | severalDocuments
  | unknownAnchor (name : String)
  | unknownTagHandle (handle : String)
  | unexpectedValue (expected : String)
  | repeatedField (name : String)
  deriving DecidableEq

/-- The fault in words. -/
def Fault.message : Fault → String
  | .forbiddenCharacter => "control characters are not allowed"
  | .strayCharacter => "found character that cannot start any token"
  | .unfinishedKey => "could not find expected ':'"
  | .misplacedEntry => "block sequence entries are not allowed in this context"
  | .misplacedKey => "mapping keys are not allowed in this context"
  | .misplacedValue => "mapping values are not allowed in this context"
  | .badName => "did not find expected alphabetic or numeric character"
  | .badTag => "did not find expected tag"
  | .badDirective => "did not find expected directive"
  | .badBlockHeader => "did not find expected comment or line break"
  | .tabInIndentation => "found a tab character where an indentation space is expected"
  | .documentMarkInQuotes => "found unexpected document indicator"
  | .openQuotes => "found unexpected end of stream"
  | .badEscape => "found unknown escape sequence"
  | .colonInFlow => "found unexpected ':'"
  | .nodeExpected => "did not find expected node content"
  | .entryExpected => "did not find expected '-' indicator"
  | .keyExpected => "did not find expected key"
  | .separatorExpected => "did not find expected ',' or closing bracket"
  | .documentExpected => "did not find expected <document start>"
  | .severalDocuments => "more than one document"
  | .unknownAnchor name => s!"unknown anchor '{name}'"
  | .unknownTagHandle handle => s!"found undefined tag handle '{handle}'"
  | .unexpectedValue expected => s!"invalid type, expected {expected}"
  | .repeatedField name => s!"duplicate field `{name}`"

end BindingGraph.Yaml
