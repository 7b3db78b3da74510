import Mathlib.Data.List.Infix

/-!
# Patterns

A pattern is matched against a whole text. One sign stands for any text, one for
any character, and one takes the meaning away from the sign behind it. A text
whose signs are escaped, between two signs for any text, matches exactly the
texts that contain it.
-/

namespace Munavvar.Like

variable {α : Type} [DecidableEq α]

/-- The characters with a meaning of their own. -/
structure Signs (α : Type) where
  /-- Any text. -/
  many : α
  /-- Any character. -/
  one : α
  /-- The next character as it is. -/
  escape : α
  /-- The signs differ. -/
  many_ne_one : many ≠ one
  /-- The signs differ. -/
  many_ne_escape : many ≠ escape
  /-- The signs differ. -/
  one_ne_escape : one ≠ escape

/-- Match a character as it is and the rest of the text by a continuation. -/
def literal (d : α) (rest : List α → Option Bool) : List α → Option Bool
  | [] => some false
  | c :: text => if c = d then rest text else some false

/-- Match any character and the rest of the text by a continuation. -/
def anyOne (rest : List α → Option Bool) : List α → Option Bool
  | [] => some false
  | _ :: text => rest text

/-- Leave any text away and match the rest by a continuation. -/
def anySuffix (rest : List α → Option Bool) : List α → Option Bool
  | [] => rest []
  | c :: text => do
    if ← rest (c :: text) then some true else anySuffix rest text

/-- `text LIKE pattern`. There is no answer if the pattern ends with an escape
while there is text left. -/
def like (w : Signs α) : List α → List α → Option Bool
  | [], text => some text.isEmpty
  | c :: pattern, text =>
    if c = w.many then anySuffix (like w pattern) text
    else if c = w.one then anyOne (like w pattern) text
    else if c = w.escape then
      match pattern with
      | [] => if text = [] then some false else none
      | d :: pattern => literal d (like w pattern) text
    else literal c (like w pattern) text

/-- A character in a pattern that matches nothing else. -/
def Signs.quoted (w : Signs α) (c : α) : List α :=
  if c = w.many ∨ c = w.one ∨ c = w.escape then [w.escape, c] else [c]

/-- The pattern of the texts that contain a text. -/
def Signs.contains (w : Signs α) (q : List α) : List α :=
  w.many :: (q.flatMap w.quoted ++ [w.many])

variable {w : Signs α}

theorem like_cons_many (pattern text : List α) :
    like w (w.many :: pattern) text = anySuffix (like w pattern) text := by
  rw [like.eq_def]
  exact if_pos rfl

theorem like_cons_escape (c : α) (pattern text : List α) :
    like w (w.escape :: c :: pattern) text = literal c (like w pattern) text := by
  rw [like.eq_def]
  dsimp only
  rw [if_neg w.many_ne_escape.symm, if_neg w.one_ne_escape.symm, if_pos rfl]

theorem like_cons_literal {c : α} (hmany : c ≠ w.many) (hone : c ≠ w.one) (hescape : c ≠ w.escape)
    (pattern text : List α) :
    like w (c :: pattern) text = literal c (like w pattern) text := by
  rw [like.eq_def]
  dsimp only
  rw [if_neg hmany, if_neg hone, if_neg hescape]

/-- A quoted character is matched as it is. -/
theorem like_quoted (c : α) (pattern text : List α) :
    like w (w.quoted c ++ pattern) text = literal c (like w pattern) text := by
  unfold Signs.quoted
  split_ifs with hsign
  · exact like_cons_escape c pattern text
  · push Not at hsign
    exact like_cons_literal hsign.1 hsign.2.1 hsign.2.2 pattern text

/-- The last sign takes all that is left. -/
theorem like_many (text : List α) : like w [w.many] text = some true := by
  rw [like_cons_many]
  induction text with
  | nil => rfl
  | cons c text ih =>
    rw [anySuffix, like]
    exact ih

/-- A quoted text and then anything is the pattern of the texts that begin with it. -/
theorem like_prefix (q text : List α) :
    like w (q.flatMap w.quoted ++ [w.many]) text = some (decide (q <+: text)) := by
  induction q generalizing text with
  | nil =>
    rw [List.flatMap_nil, List.nil_append, like_many, decide_eq_true List.nil_prefix]
  | cons c q ih =>
    rw [List.flatMap_cons, List.append_assoc, like_quoted]
    cases text with
    | nil =>
      rw [literal, decide_eq_false]
      intro hprefix
      cases List.prefix_nil.mp hprefix
    | cons d text =>
      rw [literal]
      split_ifs with hd
      · rw [ih]
        simp [hd]
      · rw [decide_eq_false]
        intro hprefix
        exact hd (List.cons_prefix_cons.mp hprefix).1.symm

/-- The pattern of the texts that contain a text matches these and no others. -/
theorem like_contains (q text : List α) :
    like w (w.contains q) text = some (decide (q <:+: text)) := by
  rw [Signs.contains, like_cons_many]
  induction text with
  | nil =>
    rw [anySuffix, like_prefix]
    simp
  | cons c text ih =>
    have hcons : q <:+: c :: text ↔ q <+: c :: text ∨ q <:+: text := List.infix_cons_iff
    rw [anySuffix, like_prefix, ih]
    by_cases hprefix : q <+: c :: text
    · simp [hcons, hprefix]
    · simp [hcons, hprefix]

/-- Matching depends only on which characters are equal and which are signs. -/
theorem like_map {β : Type} [DecidableEq β] {w' : Signs β} (f : α → β) (hmany : f w.many = w'.many)
    (hsign : ∀ c, f c = w'.many ∨ f c = w'.one ∨ f c = w'.escape ↔
      c = w.many ∨ c = w.one ∨ c = w.escape) (hescape : f w.escape = w'.escape) (q text : List α) :
    like w' ((w.contains q).map f) (text.map f) = some (decide (q.map f <:+: text.map f)) := by
  have hquoted : ∀ c, (w.quoted c).map f = w'.quoted (f c) := by
    intro c
    unfold Signs.quoted
    by_cases hc : c = w.many ∨ c = w.one ∨ c = w.escape
    · rw [if_pos hc, if_pos ((hsign c).mpr hc), List.map_cons, List.map_singleton, hescape]
    · rw [if_neg hc, if_neg (mt (hsign c).mp hc), List.map_singleton]
  have hcontains : (w.contains q).map f = w'.contains (q.map f) := by
    rw [Signs.contains, Signs.contains, List.map_cons, List.map_append, List.map_singleton, hmany,
      List.map_flatMap, List.flatMap_map]
    simp only [hquoted]
  rw [hcontains, like_contains]

end Munavvar.Like
