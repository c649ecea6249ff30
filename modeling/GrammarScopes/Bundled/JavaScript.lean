/-!
The bundled grammar for JavaScript, as JSON.
-/

namespace GrammarScopes.Bundled

def javaScriptLines : List String := [
  "\x7b",
  "  \"name\": \"JavaScript\",",
  "  \"scopeName\": \"source.js\",",
  "  \"fileTypes\": [\"js\", \"mjs\", \"cjs\"],",
  "  \"patterns\": [\x7b \"include\": \"#statements\" \x7d],",
  "  \"repository\": \x7b",
  "    \"statements\": \x7b",
  "      \"patterns\": [",
  "        \x7b \"include\": \"#comments\" \x7d,",
  "        \x7b \"include\": \"#declaration\" \x7d,",
  "        \x7b \"include\": \"#block\" \x7d,",
  "        \x7b \"include\": \"#expression\" \x7d,",
  "        \x7b",
  "          \"match\": \";\",",
  "          \"name\": \"punctuation.terminator.statement.js\"",
  "        \x7d",
  "      ]",
  "    \x7d,",
  "    \"comments\": \x7b",
  "      \"patterns\": [",
  "        \x7b",
  "          \"begin\": \"/\\\\*\",",
  "          \"end\": \"\\\\*/\",",
  "          \"name\": \"comment.block.js\",",
  "          \"captures\": \x7b",
  "            \"0\": \x7b \"name\": \"punctuation.definition.comment.js\" \x7d",
  "          \x7d",
  "        \x7d,",
  "        \x7b",
  "          \"match\": \"(//).*$\",",
  "          \"name\": \"comment.line.double-slash.js\",",
  "          \"captures\": \x7b",
  "            \"1\": \x7b \"name\": \"punctuation.definition.comment.js\" \x7d",
  "          \x7d",
  "        \x7d",
  "      ]",
  "    \x7d,",
  "    \"declaration\": \x7b",
  "      \"patterns\": [",
  "        \x7b",
  "          \"match\": \"\\\\b(var|let|const)\\\\b\",",
  "          \"name\": \"storage.type.js\"",
  "        \x7d,",
  "        \x7b",
  "          \"match\": \"\\\\b(function)\\\\b(?:\\\\s*(\\\\*))?(?:\\\\s+([A-Za-z_$][\\\\w$]*))?\",",
  "          \"captures\": \x7b",
  "            \"1\": \x7b \"name\": \"storage.type.function.js\" \x7d,",
  "            \"2\": \x7b \"name\": \"keyword.generator.asterisk.js\" \x7d,",
  "            \"3\": \x7b \"name\": \"entity.name.function.js\" \x7d",
  "          \x7d",
  "        \x7d,",
  "        \x7b",
  "          \"match\": \"\\\\b(class)\\\\s+([A-Za-z_$][\\\\w$]*)\",",
  "          \"captures\": \x7b",
  "            \"1\": \x7b \"name\": \"storage.type.class.js\" \x7d,",
  "            \"2\": \x7b \"name\": \"entity.name.type.class.js\" \x7d",
  "          \x7d",
  "        \x7d",
  "      ]",
  "    \x7d,",
  "    \"block\": \x7b",
  "      \"begin\": \"\\\\\x7b\",",
  "      \"end\": \"\\\\\x7d\",",
  "      \"name\": \"meta.block.js\",",
  "      \"captures\": \x7b",
  "        \"0\": \x7b \"name\": \"punctuation.definition.block.js\" \x7d",
  "      \x7d,",
  "      \"patterns\": [\x7b \"include\": \"#statements\" \x7d]",
  "    \x7d,",
  "    \"expression\": \x7b",
  "      \"patterns\": [",
  "        \x7b \"include\": \"#comments\" \x7d,",
  "        \x7b \"include\": \"#strings\" \x7d,",
  "        \x7b \"include\": \"#template\" \x7d,",
  "        \x7b \"include\": \"#keywords\" \x7d,",
  "        \x7b \"include\": \"#constants\" \x7d,",
  "        \x7b \"include\": \"#numbers\" \x7d,",
  "        \x7b \"include\": \"#function-call\" \x7d,",
  "        \x7b \"include\": \"#paren\" \x7d,",
  "        \x7b \"include\": \"#array\" \x7d,",
  "        \x7b \"include\": \"#operators\" \x7d,",
  "        \x7b \"include\": \"#punctuation\" \x7d",
  "      ]",
  "    \x7d,",
  "    \"strings\": \x7b",
  "      \"patterns\": [",
  "        \x7b",
  "          \"begin\": \"\\\"\",",
  "          \"end\": \"\\\"|$\",",
  "          \"name\": \"string.quoted.double.js\",",
  "          \"beginCaptures\": \x7b",
  "            \"0\": \x7b \"name\": \"punctuation.definition.string.begin.js\" \x7d",
  "          \x7d,",
  "          \"endCaptures\": \x7b",
  "            \"0\": \x7b \"name\": \"punctuation.definition.string.end.js\" \x7d",
  "          \x7d,",
  "          \"patterns\": [\x7b \"include\": \"#string-escape\" \x7d]",
  "        \x7d,",
  "        \x7b",
  "          \"begin\": \"'\",",
  "          \"end\": \"'|$\",",
  "          \"name\": \"string.quoted.single.js\",",
  "          \"beginCaptures\": \x7b",
  "            \"0\": \x7b \"name\": \"punctuation.definition.string.begin.js\" \x7d",
  "          \x7d,",
  "          \"endCaptures\": \x7b",
  "            \"0\": \x7b \"name\": \"punctuation.definition.string.end.js\" \x7d",
  "          \x7d,",
  "          \"patterns\": [\x7b \"include\": \"#string-escape\" \x7d]",
  "        \x7d",
  "      ]",
  "    \x7d,",
  "    \"string-escape\": \x7b",
  "      \"match\": \"\\\\\\\\(x[0-9A-Fa-f]\x7b2\x7d|u\\\\\x7b[0-9A-Fa-f]+\\\\\x7d|u[0-9A-Fa-f]\x7b4\x7d|.|$)\",",
  "      \"name\": \"constant.character.escape.js\"",
  "    \x7d,",
  "    \"template\": \x7b",
  "      \"begin\": \"`\",",
  "      \"end\": \"`\",",
  "      \"name\": \"string.template.js\",",
  "      \"captures\": \x7b",
  "        \"0\": \x7b \"name\": \"punctuation.definition.string.template.js\" \x7d",
  "      \x7d,",
  "      \"patterns\": [",
  "        \x7b \"include\": \"#string-escape\" \x7d,",
  "        \x7b",
  "          \"begin\": \"\\\\$\\\\\x7b\",",
  "          \"end\": \"\\\\\x7d\",",
  "          \"name\": \"meta.template.expression.js\",",
  "          \"captures\": \x7b",
  "            \"0\": \x7b \"name\": \"punctuation.definition.template-expression.js\" \x7d",
  "          \x7d,",
  "          \"patterns\": [\x7b \"include\": \"#expression\" \x7d]",
  "        \x7d",
  "      ]",
  "    \x7d,",
  "    \"keywords\": \x7b",
  "      \"patterns\": [",
  "        \x7b",
  "          \"match\": \"\\\\b(if|else|for|while|do|switch|case|default|break|continue|return|throw|try|catch|finally)\\\\b\",",
  "          \"name\": \"keyword.control.js\"",
  "        \x7d,",
  "        \x7b",
  "          \"match\": \"\\\\b(import|export|from|as)\\\\b\",",
  "          \"name\": \"keyword.control.module.js\"",
  "        \x7d,",
  "        \x7b",
  "          \"match\": \"\\\\b(new|delete|typeof|instanceof|in|of|void|await|yield|async)\\\\b\",",
  "          \"name\": \"keyword.operator.expression.js\"",
  "        \x7d,",
  "        \x7b",
  "          \"match\": \"\\\\b(this|super)\\\\b\",",
  "          \"name\": \"variable.language.js\"",
  "        \x7d",
  "      ]",
  "    \x7d,",
  "    \"constants\": \x7b",
  "      \"match\": \"\\\\b(true|false|null|undefined|NaN|Infinity)\\\\b\",",
  "      \"name\": \"constant.language.js\"",
  "    \x7d,",
  "    \"numbers\": \x7b",
  "      \"match\": \"\\\\b(?:0[xX][0-9a-fA-F]+|0[bB][01]+|0[oO][0-7]+|\\\\d+(?:\\\\.\\\\d+)?(?:[eE][+-]?\\\\d+)?)n?\\\\b\",",
  "      \"name\": \"constant.numeric.js\"",
  "    \x7d,",
  "    \"function-call\": \x7b",
  "      \"match\": \"([A-Za-z_$][\\\\w$]*)\\\\s*(?=\\\\()\",",
  "      \"captures\": \x7b",
  "        \"1\": \x7b \"name\": \"entity.name.function.js\" \x7d",
  "      \x7d",
  "    \x7d,",
  "    \"paren\": \x7b",
  "      \"begin\": \"\\\\(\",",
  "      \"end\": \"\\\\)\",",
  "      \"name\": \"meta.brace.round.js\",",
  "      \"patterns\": [\x7b \"include\": \"#expression\" \x7d]",
  "    \x7d,",
  "    \"array\": \x7b",
  "      \"begin\": \"\\\\[\",",
  "      \"end\": \"\\\\]\",",
  "      \"name\": \"meta.array.literal.js\",",
  "      \"patterns\": [\x7b \"include\": \"#expression\" \x7d]",
  "    \x7d,",
  "    \"operators\": \x7b",
  "      \"patterns\": [",
  "        \x7b",
  "          \"match\": \"=>\",",
  "          \"name\": \"storage.type.function.arrow.js\"",
  "        \x7d,",
  "        \x7b",
  "          \"match\": \"===|!==|==|!=|<=|>=|&&|\\\\|\\\\||\\\\?\\\\?|\\\\+\\\\+|--|[-+*/%=<>!&|^~?:]\",",
  "          \"name\": \"keyword.operator.js\"",
  "        \x7d",
  "      ]",
  "    \x7d,",
  "    \"punctuation\": \x7b",
  "      \"patterns\": [",
  "        \x7b \"match\": \",\", \"name\": \"punctuation.separator.comma.js\" \x7d,",
  "        \x7b \"match\": \"\\\\.\", \"name\": \"punctuation.accessor.js\" \x7d",
  "      ]",
  "    \x7d",
  "  \x7d",
  "\x7d"]

def javaScriptText : String := String.join (javaScriptLines.map (· ++ "\n"))

end GrammarScopes.Bundled
