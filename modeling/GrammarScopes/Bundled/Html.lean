/-!
The bundled grammar for HTML, as JSON.
-/

namespace GrammarScopes.Bundled

def htmlLines : List String := [
  "\x7b",
  "  \"name\": \"HTML\",",
  "  \"scopeName\": \"text.html.basic\",",
  "  \"fileTypes\": [\"html\", \"htm\", \"xhtml\"],",
  "  \"patterns\": [",
  "    \x7b \"include\": \"#comment\" \x7d,",
  "    \x7b \"include\": \"#doctype\" \x7d,",
  "    \x7b \"include\": \"#script\" \x7d,",
  "    \x7b \"include\": \"#style\" \x7d,",
  "    \x7b \"include\": \"#tag\" \x7d,",
  "    \x7b \"include\": \"#entity\" \x7d",
  "  ],",
  "  \"repository\": \x7b",
  "    \"comment\": \x7b",
  "      \"begin\": \"<!--\",",
  "      \"end\": \"-->\",",
  "      \"name\": \"comment.block.html\",",
  "      \"captures\": \x7b",
  "        \"0\": \x7b \"name\": \"punctuation.definition.comment.html\" \x7d",
  "      \x7d",
  "    \x7d,",
  "    \"doctype\": \x7b",
  "      \"begin\": \"(<!)((?i:doctype))\\\\b\",",
  "      \"beginCaptures\": \x7b",
  "        \"1\": \x7b \"name\": \"punctuation.definition.tag.begin.html\" \x7d,",
  "        \"2\": \x7b \"name\": \"entity.name.tag.html\" \x7d",
  "      \x7d,",
  "      \"end\": \">\",",
  "      \"endCaptures\": \x7b",
  "        \"0\": \x7b \"name\": \"punctuation.definition.tag.end.html\" \x7d",
  "      \x7d,",
  "      \"name\": \"meta.tag.metadata.doctype.html\"",
  "    \x7d,",
  "    \"script\": \x7b",
  "      \"begin\": \"(<)((?i:script))\\\\b\",",
  "      \"beginCaptures\": \x7b",
  "        \"1\": \x7b \"name\": \"punctuation.definition.tag.begin.html\" \x7d,",
  "        \"2\": \x7b \"name\": \"entity.name.tag.html\" \x7d",
  "      \x7d,",
  "      \"end\": \"(</)((?i:script))\\\\s*(>)\",",
  "      \"endCaptures\": \x7b",
  "        \"1\": \x7b \"name\": \"punctuation.definition.tag.begin.html\" \x7d,",
  "        \"2\": \x7b \"name\": \"entity.name.tag.html\" \x7d,",
  "        \"3\": \x7b \"name\": \"punctuation.definition.tag.end.html\" \x7d",
  "      \x7d,",
  "      \"name\": \"meta.embedded.block.html\",",
  "      \"patterns\": [",
  "        \x7b",
  "          \"begin\": \"(>)\",",
  "          \"beginCaptures\": \x7b",
  "            \"1\": \x7b \"name\": \"punctuation.definition.tag.end.html\" \x7d",
  "          \x7d,",
  "          \"end\": \"(?=</(?i:script)\\\\b)\",",
  "          \"contentName\": \"source.js\",",
  "          \"patterns\": [",
  "            \x7b",
  "              \"match\": \"(//).*?(?=</(?i:script)\\\\b|$)\",",
  "              \"name\": \"comment.line.double-slash.js\",",
  "              \"captures\": \x7b",
  "                \"1\": \x7b \"name\": \"punctuation.definition.comment.js\" \x7d",
  "              \x7d",
  "            \x7d,",
  "            \x7b \"include\": \"source.js\" \x7d",
  "          ]",
  "        \x7d,",
  "        \x7b \"include\": \"#attribute\" \x7d",
  "      ]",
  "    \x7d,",
  "    \"style\": \x7b",
  "      \"begin\": \"(<)((?i:style))\\\\b\",",
  "      \"beginCaptures\": \x7b",
  "        \"1\": \x7b \"name\": \"punctuation.definition.tag.begin.html\" \x7d,",
  "        \"2\": \x7b \"name\": \"entity.name.tag.html\" \x7d",
  "      \x7d,",
  "      \"end\": \"(</)((?i:style))\\\\s*(>)\",",
  "      \"endCaptures\": \x7b",
  "        \"1\": \x7b \"name\": \"punctuation.definition.tag.begin.html\" \x7d,",
  "        \"2\": \x7b \"name\": \"entity.name.tag.html\" \x7d,",
  "        \"3\": \x7b \"name\": \"punctuation.definition.tag.end.html\" \x7d",
  "      \x7d,",
  "      \"name\": \"meta.embedded.block.html\",",
  "      \"patterns\": [",
  "        \x7b",
  "          \"begin\": \"(>)\",",
  "          \"beginCaptures\": \x7b",
  "            \"1\": \x7b \"name\": \"punctuation.definition.tag.end.html\" \x7d",
  "          \x7d,",
  "          \"end\": \"(?=</(?i:style)\\\\b)\",",
  "          \"contentName\": \"source.css\",",
  "          \"patterns\": [\x7b \"include\": \"source.css\" \x7d]",
  "        \x7d,",
  "        \x7b \"include\": \"#attribute\" \x7d",
  "      ]",
  "    \x7d,",
  "    \"tag\": \x7b",
  "      \"begin\": \"(</?)([a-zA-Z][\\\\w:-]*)\",",
  "      \"beginCaptures\": \x7b",
  "        \"1\": \x7b \"name\": \"punctuation.definition.tag.begin.html\" \x7d,",
  "        \"2\": \x7b \"name\": \"entity.name.tag.html\" \x7d",
  "      \x7d,",
  "      \"end\": \"(/?>)\",",
  "      \"endCaptures\": \x7b",
  "        \"1\": \x7b \"name\": \"punctuation.definition.tag.end.html\" \x7d",
  "      \x7d,",
  "      \"name\": \"meta.tag.$\x7b2:/downcase\x7d.html\",",
  "      \"patterns\": [\x7b \"include\": \"#attribute\" \x7d]",
  "    \x7d,",
  "    \"attribute\": \x7b",
  "      \"patterns\": [",
  "        \x7b",
  "          \"begin\": \"\\\\b((?i:style))\\\\s*(=)\\\\s*(\\\")\",",
  "          \"beginCaptures\": \x7b",
  "            \"1\": \x7b \"name\": \"entity.other.attribute-name.html\" \x7d,",
  "            \"2\": \x7b \"name\": \"punctuation.separator.key-value.html\" \x7d,",
  "            \"3\": \x7b \"name\": \"punctuation.definition.string.begin.html\" \x7d",
  "          \x7d,",
  "          \"end\": \"\\\"\",",
  "          \"endCaptures\": \x7b",
  "            \"0\": \x7b \"name\": \"punctuation.definition.string.end.html\" \x7d",
  "          \x7d,",
  "          \"name\": \"meta.attribute.style.html\",",
  "          \"contentName\": \"source.css\",",
  "          \"patterns\": [\x7b \"include\": \"source.css#property-values\" \x7d]",
  "        \x7d,",
  "        \x7b",
  "          \"begin\": \"\\\\b((?i:on[a-z]+))\\\\s*(=)\\\\s*(\\\")\",",
  "          \"beginCaptures\": \x7b",
  "            \"1\": \x7b \"name\": \"entity.other.attribute-name.html\" \x7d,",
  "            \"2\": \x7b \"name\": \"punctuation.separator.key-value.html\" \x7d,",
  "            \"3\": \x7b \"name\": \"punctuation.definition.string.begin.html\" \x7d",
  "          \x7d,",
  "          \"end\": \"\\\"\",",
  "          \"endCaptures\": \x7b",
  "            \"0\": \x7b \"name\": \"punctuation.definition.string.end.html\" \x7d",
  "          \x7d,",
  "          \"name\": \"meta.attribute.event-handler.html\",",
  "          \"contentName\": \"source.js\",",
  "          \"patterns\": [\x7b \"include\": \"source.js#expression\" \x7d]",
  "        \x7d,",
  "        \x7b",
  "          \"match\": \"([a-zA-Z_:][\\\\w:.-]*)(?:\\\\s*(=)\\\\s*(\\\"[^\\\"]*\\\"|'[^']*'|[^\\\\s\\\"'=<>`]+))?\",",
  "          \"captures\": \x7b",
  "            \"1\": \x7b \"name\": \"entity.other.attribute-name.html\" \x7d,",
  "            \"2\": \x7b \"name\": \"punctuation.separator.key-value.html\" \x7d,",
  "            \"3\": \x7b \"name\": \"string.quoted.html\" \x7d",
  "          \x7d",
  "        \x7d",
  "      ]",
  "    \x7d,",
  "    \"entity\": \x7b",
  "      \"match\": \"(&)([a-zA-Z0-9]+|#[0-9]+|#x[0-9a-fA-F]+)(;)\",",
  "      \"name\": \"constant.character.entity.html\",",
  "      \"captures\": \x7b",
  "        \"1\": \x7b \"name\": \"punctuation.definition.entity.html\" \x7d,",
  "        \"3\": \x7b \"name\": \"punctuation.definition.entity.html\" \x7d",
  "      \x7d",
  "    \x7d",
  "  \x7d",
  "\x7d"]

def htmlText : String := String.join (htmlLines.map (· ++ "\n"))

end GrammarScopes.Bundled
