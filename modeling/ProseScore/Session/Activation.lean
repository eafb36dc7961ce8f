import ProseScore.Score

/-!
# When a paragraph plays

A paragraph asks to be played by ending with the terminator.  One that begins
with the live-open symbol is live instead: it sounds while it is typed.  Inside
any paragraph, the live-open symbol begins a live region and the live-close
symbol ends it.
-/

namespace ProseScore

namespace Symbols

def isLive (symbols : Symbols) (s : Text) : Bool :=
  (Text.trim s).head? = some (symbols .liveOpen)

def wantsActivation (symbols : Symbols) (s : Text) : Bool :=
  !symbols.isLive s && (Text.trim s).getLast? = some (symbols .terminator)

/-- Whether a caret behind so many characters is in a live region: the last live
symbol before it opens one. -/
def inLiveRegion (symbols : Symbols) (s : Text) (offset : Nat) : Bool :=
  let marks := (s.take offset).filter fun c =>
    c = symbols .liveOpen || c = symbols .liveClose
  marks.getLast? = some (symbols .liveOpen)

end Symbols

def Score.ofActive? {R : Type} (config : Config R) (p : Paragraph R) : Option (Score R) :=
  if config.symbols.wantsActivation p.text then some (.ofParagraph config p) else none

end ProseScore
