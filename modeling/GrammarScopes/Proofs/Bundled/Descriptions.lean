import GrammarScopes.Proofs.Registry.Closure

/-!
What the bundled texts describe, and what is compiled from it for HTML.
-/

namespace GrammarScopes.Bundled

open Json in
def describe (lines : List (List Char)) : Except JsonError GrammarDescription := do
  let (d, rest) ← Description.readGrammar.run (lines.flatMap (· ++ ['\n']))
  if rest.all Read.isBlank then return d else throw .trailingCharacters

theorem ofText_join (lines : List String) :
    GrammarDescription.ofText (String.join (lines.map (· ++ "\n"))) =
      describe (lines.map String.toList) := by
  have htext : (String.join (lines.map (· ++ "\n"))).toList =
      (lines.map String.toList).flatMap (· ++ ['\n']) := by
    simp [String.toList_join, List.flatMap_map]
  rw [GrammarDescription.ofText, Json.Read.whole, htext]
  rfl

/-- Spells out the first line: a literal unifies with the text of its characters. -/
theorem map_toList_cons {cs : List Char} {lines : List String} {css : List (List Char)}
    (h : lines.map String.toList = css) :
    (String.ofList cs :: lines).map String.toList = cs :: css := by
  rw [List.map_cons, h, String.toList_ofList]

def grammars (html js css : GrammarDescription) : GrammarSet :=
  [("source.css", css), ("source.js", js), ("text.html.basic", html)]

open Registry Collection in
theorem compilesTo {html js css : GrammarDescription} {g : Grammar}
    (hhtml : describe (htmlLines.map String.toList) = .ok html)
    (hjs : describe (javaScriptLines.map String.toList) = .ok js)
    (hcss : describe (cssLines.map String.toList) = .ok css)
    (hembedded : html.externalScopes = ["source.css", "source.js"]) (hnone : js.externalScopes = [])
    (hnone' : css.externalScopes = [])
    (hg : Grammar.compile "text.html.basic" (grammars html js css) .standard = .ok g) :
    CompilesTo .bundled .bundled "text.html.basic" g := by
  let scope := "text.html.basic"
  let lookup := descriptionOf .bundled .bundled
  have hlookup (scope location : String) (lines : List String) {d : GrammarDescription}
      (hscope : GrammarTable.bundled.location? scope = some location)
      (htext : text? location = some (String.join (lines.map (· ++ "\n"))))
      (hd : describe (lines.map String.toList) = .ok d) : lookup scope = .ok d := by
    unfold lookup descriptionOf
    rw [hscope]
    unfold readDescription Source.read
    simp only [htext, bind, Except.bind, ofText_join, hd]
    rfl
  have hhtml := hlookup scope "syntaxes/html.tmLanguage.json" htmlLines (by decide) rfl hhtml
  have hjs := hlookup "source.js" "syntaxes/javascript.tmLanguage.json" javaScriptLines (by decide) rfl hjs
  have hcss := hlookup "source.css" "syntaxes/css.tmLanguage.json" cssLines (by decide) rfl hcss
  have hinsert : Dictionary.insert "source.js" js [(scope, html)] =
      [("source.js", js), (scope, html)] :=
    if_pos (show "source.js" < "text.html.basic" by decide)
  have hinsert' : Dictionary.insert "source.css" css [("source.js", js), (scope, html)] =
      grammars html js css :=
    if_pos (show "source.css" < "source.js" by decide)
  have hnext₁ : next? lookup scope { pending := [scope] } =
      some { found := [(scope, html)], pending := ["source.js", "source.css"] } := by
    refine (next?_found (c := {}) rfl hhtml).trans ?_
    simp [add, hembedded, Dictionary.insert]
  have hnext₂ :
      next? lookup scope { found := [(scope, html)], pending := ["source.js", "source.css"] } =
      some { found := [("source.js", js), (scope, html)], pending := ["source.css"] } := by
    refine (next?_found (c := { found := [(scope, html)] }) ?_ hjs).trans ?_
    · simp [isKnown, scope]
    · simp [add, hnone, hinsert]
  have hnext₃ :
      next? lookup scope { found := [("source.js", js), (scope, html)], pending := ["source.css"] } =
      some { found := grammars html js css } := by
    refine (next?_found (c := { found := [("source.js", js), (scope, html)] }) ?_ hcss).trans ?_
    · simp [isKnown, scope]
    · simp [add, hnone', hinsert']
  have hgathered : Gathered lookup scope { found := grammars html js css } :=
    ((Gathered.next .refl hnext₁).next hnext₂).next hnext₃
  refine ⟨_, hgathered, rfl, ?_⟩
  rw [compileCollected, hg]
  rfl

end GrammarScopes.Bundled
