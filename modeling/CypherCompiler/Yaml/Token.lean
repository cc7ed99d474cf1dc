import CypherCompiler.Yaml.Tag

namespace CypherCompiler.Yaml

-- How a scalar is written.
inductive Style where
  | plain
  | quoted
  | literal
  | folded
  deriving DecidableEq, Repr

-- The marks of a document. Blocks have no marks of their own: they begin and end by
-- indentation.
inductive Token where
  | directive (d : Directive)
  | documentStart
  | documentEnd
  | endOfText
  | openBlockSeq
  | openBlockMap
  | closeBlock
  | openSeq
  | closeSeq
  | openMap
  | closeMap
  | dash
  | comma
  | key
  | value
  | anchor (name : String)
  | reference (name : String)
  | tag (t : WrittenTag)
  | scalar (text : String) (style : Style)
  deriving DecidableEq, Repr

end CypherCompiler.Yaml
