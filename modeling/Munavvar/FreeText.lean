import Munavvar.Like

/-!
# Search patterns

Free text is searched with `ILIKE`. What a user types is to be found as it is, so
the signs of patterns in it are escaped: first the backslash, then the two
wildcards. A text is found exactly where it is contained.
-/

namespace Munavvar.FreeText

open Munavvar.Like

/-- The signs of `LIKE`. -/
def signs : Signs Char := ⟨'%', '_', '\\', by decide, by decide, by decide⟩

/-- `str.replace` of one character. -/
def replace (old : Char) (new text : List Char) : List Char :=
  text.flatMap fun c => if c = old then new else [c]

/-- `ilike_pattern`. -/
def ilikePattern (q : String) : String :=
  let escaped := replace '_' ['\\', '_'] (replace '%' ['\\', '%'] (replace '\\' ['\\', '\\'] q.toList))
  String.ofList ('%' :: (escaped ++ ['%']))

/-- `ILIKE`, which compares characters whose case is folded. -/
def ilike (fold : Char → Char) (text pattern : String) : Option Bool :=
  like signs (pattern.toList.map fold) (text.toList.map fold)

/-- One after another, the replacements quote every sign once. -/
theorem replace_replace (text : List Char) :
    replace '_' ['\\', '_'] (replace '%' ['\\', '%'] (replace '\\' ['\\', '\\'] text)) =
      text.flatMap signs.quoted := by
  unfold replace
  rw [List.flatMap_assoc, List.flatMap_assoc]
  congr 1
  funext c
  unfold Signs.quoted
  by_cases hescape : c = '\\'
  · rw [hescape]
    rfl
  · by_cases hmany : c = '%'
    · rw [hmany]
      rfl
    · by_cases hone : c = '_'
      · rw [hone]
        rfl
      · have hsign : ¬ (c = signs.many ∨ c = signs.one ∨ c = signs.escape) := by
          rintro (h | h | h)
          · exact hmany h
          · exact hone h
          · exact hescape h
        rw [if_neg hescape, if_neg hsign, List.flatMap_singleton, if_neg hmany,
          List.flatMap_singleton, if_neg hone]

theorem ilikePattern_eq (q : String) : (ilikePattern q).toList = signs.contains q.toList := by
  rw [ilikePattern, String.toList_ofList, replace_replace]
  rfl

/-- A text is like the pattern of a query exactly if it contains the query. -/
theorem ilike_pattern_exact (q s : String) :
    like signs (ilikePattern q).toList s.toList = some (decide (q.toList <:+: s.toList)) := by
  rw [ilikePattern_eq]
  exact like_contains q.toList s.toList

/-- Where the case is folded, a text is found if it is contained with its case
folded: no letter folds to a sign. -/
theorem ilike_ilikePattern {fold : Char → Char}
    (hfold : ∀ c, fold c ∈ ['%', '_', '\\'] ↔ c ∈ ['%', '_', '\\'])
    (hsigns : fold '%' = '%' ∧ fold '\\' = '\\') (q s : String) :
    ilike fold s (ilikePattern q) =
      some (decide (q.toList.map fold <:+: s.toList.map fold)) := by
  rw [ilike, ilikePattern_eq]
  refine like_map fold hsigns.1 (fun c => ?_) hsigns.2 q.toList s.toList
  have hc := hfold c
  simp only [List.mem_cons, List.not_mem_nil, or_false] at hc
  exact hc

end Munavvar.FreeText
