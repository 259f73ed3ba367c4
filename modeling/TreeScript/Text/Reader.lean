/-!
# Readers

A reader takes a value off the front of a text. It always takes at least one character, so any
loop of readers comes to an end: the law is part of the reader.
-/

namespace TreeScript.Text

/-- Takes a value off the front of a text, or says why there is none. -/
structure Reader (ε α : Type) where
  /-- The value, and the text after it. -/
  run : List Char → Except ε (α × List Char)
  /-- What is left is shorter than what was given. -/
  shorter : ∀ {cs rest : List Char} {a : α}, run cs = .ok (a, rest) → rest.length < cs.length

namespace Reader

variable {ε α β : Type}

/-- A reader that takes nothing and fails on every text. -/
def fail (error : List Char → ε) : Reader ε α where
  run cs := .error (error cs)
  shorter h := by cases h

/-- Takes a value and turns it into another. -/
def runMap (f : α → β) (r : Reader ε α) (cs : List Char) : Except ε (β × List Char) :=
  match r.run cs with
  | .ok (a, rest) => .ok (f a, rest)
  | .error e => .error e

theorem runMap_shorter (f : α → β) (r : Reader ε α) {cs rest : List Char} {b : β}
    (h : runMap f r cs = .ok (b, rest)) : rest.length < cs.length := by
  unfold runMap at h
  split at h
  next a rest' hr =>
    cases h
    exact r.shorter hr
  next => cases h

def map (f : α → β) (r : Reader ε α) : Reader ε β where
  run := runMap f r
  shorter := runMap_shorter f r

end Reader

end TreeScript.Text
