/-!
The bundled grammar for CSS, as JSON.
-/

namespace GrammarScopes.Bundled

def cssLines : List String := [
  "\x7b",
  "  \"name\": \"CSS\",",
  "  \"scopeName\": \"source.css\",",
  "  \"fileTypes\": [\"css\"],",
  "  \"patterns\": [",
  "    \x7b \"include\": \"#comment\" \x7d,",
  "    \x7b \"include\": \"#at-rule\" \x7d,",
  "    \x7b \"include\": \"#property-list\" \x7d,",
  "    \x7b \"include\": \"#selector\" \x7d",
  "  ],",
  "  \"repository\": \x7b",
  "    \"comment\": \x7b",
  "      \"begin\": \"/\\\\*\",",
  "      \"end\": \"\\\\*/\",",
  "      \"name\": \"comment.block.css\",",
  "      \"captures\": \x7b",
  "        \"0\": \x7b \"name\": \"punctuation.definition.comment.css\" \x7d",
  "      \x7d",
  "    \x7d,",
  "    \"at-rule\": \x7b",
  "      \"match\": \"(@)([a-zA-Z-]+)\",",
  "      \"name\": \"keyword.control.at-rule.css\",",
  "      \"captures\": \x7b",
  "        \"1\": \x7b \"name\": \"punctuation.definition.keyword.css\" \x7d",
  "      \x7d",
  "    \x7d,",
  "    \"selector\": \x7b",
  "      \"patterns\": [",
  "        \x7b",
  "          \"match\": \"(\\\\.)[a-zA-Z_-][\\\\w-]*\",",
  "          \"name\": \"entity.other.attribute-name.class.css\",",
  "          \"captures\": \x7b",
  "            \"1\": \x7b \"name\": \"punctuation.definition.entity.css\" \x7d",
  "          \x7d",
  "        \x7d,",
  "        \x7b",
  "          \"match\": \"(#)[a-zA-Z_-][\\\\w-]*\",",
  "          \"name\": \"entity.other.attribute-name.id.css\",",
  "          \"captures\": \x7b",
  "            \"1\": \x7b \"name\": \"punctuation.definition.entity.css\" \x7d",
  "          \x7d",
  "        \x7d,",
  "        \x7b",
  "          \"match\": \"(::?)([a-zA-Z-]+)\",",
  "          \"name\": \"entity.other.attribute-name.pseudo-class.css\",",
  "          \"captures\": \x7b",
  "            \"1\": \x7b \"name\": \"punctuation.definition.entity.css\" \x7d",
  "          \x7d",
  "        \x7d,",
  "        \x7b",
  "          \"match\": \"\\\\*\",",
  "          \"name\": \"entity.name.tag.wildcard.css\"",
  "        \x7d,",
  "        \x7b",
  "          \"match\": \"\\\\b[a-zA-Z][\\\\w-]*\\\\b\",",
  "          \"name\": \"entity.name.tag.css\"",
  "        \x7d,",
  "        \x7b",
  "          \"match\": \",\",",
  "          \"name\": \"punctuation.separator.list.comma.css\"",
  "        \x7d",
  "      ]",
  "    \x7d,",
  "    \"property-list\": \x7b",
  "      \"begin\": \"\\\\\x7b\",",
  "      \"end\": \"\\\\\x7d\",",
  "      \"name\": \"meta.property-list.css\",",
  "      \"captures\": \x7b",
  "        \"0\": \x7b \"name\": \"punctuation.section.property-list.css\" \x7d",
  "      \x7d,",
  "      \"patterns\": [",
  "        \x7b \"include\": \"#comment\" \x7d,",
  "        \x7b \"include\": \"#property-values\" \x7d",
  "      ]",
  "    \x7d,",
  "    \"property-values\": \x7b",
  "      \"patterns\": [",
  "        \x7b",
  "          \"match\": \"(-\x7b0,2\x7d[a-zA-Z][\\\\w-]*)\\\\s*(:)\",",
  "          \"captures\": \x7b",
  "            \"1\": \x7b \"name\": \"support.type.property-name.css\" \x7d,",
  "            \"2\": \x7b \"name\": \"punctuation.separator.key-value.css\" \x7d",
  "          \x7d",
  "        \x7d,",
  "        \x7b",
  "          \"match\": \"(#)[0-9a-fA-F]\x7b3,8\x7d\\\\b\",",
  "          \"name\": \"constant.other.color.rgb-value.hex.css\",",
  "          \"captures\": \x7b",
  "            \"1\": \x7b \"name\": \"punctuation.definition.constant.css\" \x7d",
  "          \x7d",
  "        \x7d,",
  "        \x7b",
  "          \"match\": \"(?:-|\\\\+)?(?:\\\\d+(?:\\\\.\\\\d+)?|\\\\.\\\\d+)((?:px|em|rem|ex|ch|vh|vw|vmin|vmax|cm|mm|in|pt|pc|deg|rad|turn|s|ms|fr|%)\\\\b|%)?\",",
  "          \"name\": \"constant.numeric.css\",",
  "          \"captures\": \x7b",
  "            \"1\": \x7b \"name\": \"keyword.other.unit.css\" \x7d",
  "          \x7d",
  "        \x7d,",
  "        \x7b",
  "          \"begin\": \"\\\"\",",
  "          \"end\": \"\\\"|$\",",
  "          \"name\": \"string.quoted.double.css\"",
  "        \x7d,",
  "        \x7b",
  "          \"begin\": \"'\",",
  "          \"end\": \"'|$\",",
  "          \"name\": \"string.quoted.single.css\"",
  "        \x7d,",
  "        \x7b",
  "          \"match\": \"\\\\b([a-zA-Z-]+)(\\\\()\",",
  "          \"captures\": \x7b",
  "            \"1\": \x7b \"name\": \"support.function.misc.css\" \x7d,",
  "            \"2\": \x7b \"name\": \"punctuation.section.function.begin.bracket.round.css\" \x7d",
  "          \x7d",
  "        \x7d,",
  "        \x7b",
  "          \"match\": \"!\\\\s*important\",",
  "          \"name\": \"keyword.other.important.css\"",
  "        \x7d,",
  "        \x7b",
  "          \"match\": \"\\\\b[a-zA-Z-]+\\\\b\",",
  "          \"name\": \"support.constant.property-value.css\"",
  "        \x7d,",
  "        \x7b",
  "          \"match\": \";\",",
  "          \"name\": \"punctuation.terminator.rule.css\"",
  "        \x7d",
  "      ]",
  "    \x7d",
  "  \x7d",
  "\x7d"]

def cssText : String := String.join (cssLines.map (· ++ "\n"))

end GrammarScopes.Bundled
