import GrammarScopes.Grammar.Anchor
import GrammarScopes.Scanner

/-!
Lists of patterns, compiled when they are first searched for.  Patterns with anchors are compiled
once for each way in which the anchors can hold, all others only once.
-/

namespace GrammarScopes

abbrev MatcherResult := Except PatternFault Matcher

structure PatternSet where
  sources : List String
  neither : Thunk MatcherResult
  atTextStart : Thunk MatcherResult
  atSearchStart : Thunk MatcherResult
  atBoth : Thunk MatcherResult

namespace PatternSet

/-- The matcher for patterns in a place where only some anchors hold. -/
def compileAt (scanner : Scanner) (sources : List String) (a : Anchoring) : MatcherResult :=
  scanner.compile (sources.map a.patternText)

def ofSources (scanner : Scanner) (sources : List String) : PatternSet :=
  if sources.any fun s => hasAnchor s.toList then
    ⟨sources, .mk fun _ => compileAt scanner sources ⟨false, false⟩,
      .mk fun _ => compileAt scanner sources ⟨true, false⟩,
      .mk fun _ => compileAt scanner sources ⟨false, true⟩,
      .mk fun _ => compileAt scanner sources ⟨true, true⟩⟩
  else
    let shared := Thunk.mk fun _ => scanner.compile sources
    ⟨sources, shared, shared, shared, shared⟩

def ofSource (scanner : Scanner) (source : String) : PatternSet := ofSources scanner [source]

def matcher (s : PatternSet) (a : Anchoring) : MatcherResult :=
  match a with
  | ⟨false, false⟩ => s.neither.get
  | ⟨true, false⟩ => s.atTextStart.get
  | ⟨false, true⟩ => s.atSearchStart.get
  | ⟨true, true⟩ => s.atBoth.get

end PatternSet

end GrammarScopes
