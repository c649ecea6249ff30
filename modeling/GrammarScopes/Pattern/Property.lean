import GrammarScopes.Pattern.CharSet

/-!
The names by which patterns refer to sets of characters.
-/

namespace GrammarScopes.Pattern

def bracketSets : List (String × NamedSet) := [
  ("alnum", .alnum), ("alpha", .alpha), ("blank", .blank), ("cntrl", .cntrl), ("digit", .digit),
  ("graph", .graph), ("lower", .lower), ("print", .print), ("punct", .punct), ("space", .space),
  ("upper", .upper), ("xdigit", .xdigit), ("ascii", .ascii), ("word", .word)]

def propertySets : List (String × NamedSet) := [
  ("any", .any), ("assigned", .assigned), ("alphabetic", .alpha), ("lowercase", .lower),
  ("uppercase", .upper), ("whitespace", .space),
  ("l", .letter), ("letter", .letter), ("lc", .casedLetter), ("casedletter", .casedLetter),
  ("m", .mark), ("mark", .mark), ("combiningmark", .mark), ("n", .number), ("number", .number),
  ("p", .punctuation), ("punctuation", .punctuation), ("s", .symbol), ("symbol", .symbol),
  ("z", .separator), ("separator", .separator), ("c", .other), ("other", .other),
  ("cc", .ofCategory .control), ("control", .ofCategory .control), ("cf", .ofCategory .format),
  ("format", .ofCategory .format), ("cn", .ofCategory .unassigned),
  ("unassigned", .ofCategory .unassigned), ("co", .ofCategory .privateUse),
  ("privateuse", .ofCategory .privateUse), ("cs", .ofCategory .surrogate),
  ("surrogate", .ofCategory .surrogate), ("ll", .ofCategory .lowercaseLetter),
  ("lowercaseletter", .ofCategory .lowercaseLetter), ("lm", .ofCategory .modifierLetter),
  ("modifierletter", .ofCategory .modifierLetter), ("lo", .ofCategory .otherLetter),
  ("otherletter", .ofCategory .otherLetter), ("lt", .ofCategory .titlecaseLetter),
  ("titlecaseletter", .ofCategory .titlecaseLetter), ("lu", .ofCategory .uppercaseLetter),
  ("uppercaseletter", .ofCategory .uppercaseLetter), ("mc", .ofCategory .spacingMark),
  ("spacingmark", .ofCategory .spacingMark), ("me", .ofCategory .enclosingMark),
  ("enclosingmark", .ofCategory .enclosingMark), ("mn", .ofCategory .nonspacingMark),
  ("nonspacingmark", .ofCategory .nonspacingMark), ("nd", .ofCategory .decimalNumber),
  ("decimalnumber", .ofCategory .decimalNumber), ("nl", .ofCategory .letterNumber),
  ("letternumber", .ofCategory .letterNumber), ("no", .ofCategory .otherNumber),
  ("othernumber", .ofCategory .otherNumber), ("pc", .ofCategory .connectorPunctuation),
  ("connectorpunctuation", .ofCategory .connectorPunctuation),
  ("pd", .ofCategory .dashPunctuation), ("dashpunctuation", .ofCategory .dashPunctuation),
  ("pe", .ofCategory .closePunctuation), ("closepunctuation", .ofCategory .closePunctuation),
  ("pf", .ofCategory .finalPunctuation), ("finalpunctuation", .ofCategory .finalPunctuation),
  ("pi", .ofCategory .initialPunctuation), ("initialpunctuation", .ofCategory .initialPunctuation),
  ("po", .ofCategory .otherPunctuation), ("otherpunctuation", .ofCategory .otherPunctuation),
  ("ps", .ofCategory .openPunctuation), ("openpunctuation", .ofCategory .openPunctuation),
  ("sc", .ofCategory .currencySymbol), ("currencysymbol", .ofCategory .currencySymbol),
  ("sk", .ofCategory .modifierSymbol), ("modifiersymbol", .ofCategory .modifierSymbol),
  ("sm", .ofCategory .mathSymbol), ("mathsymbol", .ofCategory .mathSymbol),
  ("so", .ofCategory .otherSymbol), ("othersymbol", .ofCategory .otherSymbol),
  ("zl", .ofCategory .lineSeparator), ("lineseparator", .ofCategory .lineSeparator),
  ("zp", .ofCategory .paragraphSeparator),
  ("paragraphseparator", .ofCategory .paragraphSeparator), ("zs", .ofCategory .spaceSeparator),
  ("spaceseparator", .ofCategory .spaceSeparator), ("emoji", .emoji),
  ("idstart", .identifierStart), ("ids", .identifierStart), ("idcontinue", .identifierContinue),
  ("idc", .identifierContinue)]

def scriptSets : List (String × NamedSet) := [
  ("arabic", .ofScript .arabic), ("arab", .ofScript .arabic), ("armenian", .ofScript .armenian),
  ("armn", .ofScript .armenian), ("cyrillic", .ofScript .cyrillic), ("cyrl", .ofScript .cyrillic),
  ("devanagari", .ofScript .devanagari), ("deva", .ofScript .devanagari),
  ("georgian", .ofScript .georgian), ("geor", .ofScript .georgian), ("greek", .ofScript .greek),
  ("grek", .ofScript .greek), ("han", .ofScript .han), ("hani", .ofScript .han),
  ("hangul", .ofScript .hangul), ("hang", .ofScript .hangul), ("hebrew", .ofScript .hebrew),
  ("hebr", .ofScript .hebrew), ("hiragana", .ofScript .hiragana), ("hira", .ofScript .hiragana),
  ("katakana", .ofScript .katakana), ("kana", .ofScript .katakana), ("latin", .ofScript .latin),
  ("latn", .ofScript .latin), ("thai", .ofScript .thai)]

/-- The set with a property name, in which case, blanks, hyphens and underscores do not count. -/
def propertySet? (name : List Char) : Option NamedSet :=
  let key := String.ofList
    ((name.filter fun c => c != ' ' && c != '-' && c != '_').map Char.toLower)
  (bracketSets ++ propertySets ++ scriptSets).lookup key

end GrammarScopes.Pattern
