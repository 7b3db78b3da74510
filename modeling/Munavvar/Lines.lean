import Mathlib.Data.List.DropRight

/-!
# Texts and their lines

A text is a list of characters. It is split into lines at any of the characters
that end one, joined from lines with newlines, and stripped of the white space
around it. Splitting what was joined gives the lines back, and stripping a
joined text strips its outer lines and drops those that are blank.
-/

namespace Munavvar.Lines

/-! ## White space -/

/-- White space. -/
def isSpace (c : Char) : Bool :=
  (9 ≤ c.toNat && c.toNat ≤ 13) || (28 ≤ c.toNat && c.toNat ≤ 32) ||
    (8192 ≤ c.toNat && c.toNat ≤ 8202) ||
    c.toNat ∈ [133, 160, 5760, 8232, 8233, 8239, 8287, 12288]

/-- The characters that end a line. -/
def isBreak (c : Char) : Bool :=
  (10 ≤ c.toNat && c.toNat ≤ 13) || (28 ≤ c.toNat && c.toNat ≤ 30) ||
    c.toNat ∈ [133, 8232, 8233]

/-- Nothing but white space. -/
def isBlank (text : List Char) : Bool := text.all isSpace

/-- `str.lstrip`. -/
def lstrip (text : List Char) : List Char := text.dropWhile isSpace

/-- `str.rstrip`. -/
def rstrip (text : List Char) : List Char := text.rdropWhile isSpace

/-- `str.strip`. -/
def strip (text : List Char) : List Char := rstrip (lstrip text)

/-! ## Lines -/

/-- `str.splitlines`. -/
def splitlines : List Char → List (List Char)
  | [] => []
  | [c] => if isBreak c then [[]] else [[c]]
  | c :: d :: rest =>
    if c = '\r' ∧ d = '\n' then [] :: splitlines rest
    else if isBreak c then [] :: splitlines (d :: rest)
    else
      match splitlines (d :: rest) with
      | [] => [[c]]
      | line :: lines => (c :: line) :: lines

/-- `str.join` with a newline. -/
def joinLines (lines : List (List Char)) : List Char := ['\n'].intercalate lines

/-- A text with newlines in place of all that ends a line. -/
def normalise : List Char → List Char
  | [] => []
  | [c] => [if isBreak c then '\n' else c]
  | c :: d :: rest =>
    if c = '\r' ∧ d = '\n' then '\n' :: normalise rest
    else (if isBreak c then '\n' else c) :: normalise (d :: rest)

/-- A text without the newline at its end. -/
def chop (text : List Char) : List Char :=
  if text.getLast? = some '\n' then text.dropLast else text

/-- Lines that nothing ends. -/
def Unbroken (lines : List (List Char)) : Prop := ∀ line ∈ lines, ∀ c ∈ line, isBreak c = false

theorem joinLines_singleton (line : List Char) : joinLines [line] = line :=
  List.intercalate_singleton

theorem joinLines_cons (line : List Char) {lines : List (List Char)} (h : lines ≠ []) :
    joinLines (line :: lines) = line ++ '\n' :: joinLines lines := by
  rw [joinLines, List.intercalate_cons_of_ne_nil h, List.append_assoc, List.singleton_append]
  rfl

theorem splitlines_newline (text : List Char) :
    splitlines ('\n' :: text) = [] :: splitlines text := by
  cases text with
  | nil => rfl
  | cons d rest =>
    have hbreak : isBreak '\n' = true := by decide
    rw [splitlines, if_neg (fun h => absurd h.1 (by decide)), if_pos hbreak]

theorem splitlines_ne_nil {text : List Char} (h : text ≠ []) : splitlines text ≠ [] := by
  cases text with
  | nil => exact absurd rfl h
  | cons c text =>
    cases text with
    | nil =>
      rw [splitlines]
      split_ifs <;> exact List.cons_ne_nil _ _
    | cons d rest =>
      rw [splitlines]
      split_ifs
      · exact List.cons_ne_nil _ _
      · exact List.cons_ne_nil _ _
      · split <;> exact List.cons_ne_nil _ _

/-- A character that ends no line goes to the first line. -/
theorem splitlines_cons {c : Char} (hc : isBreak c = false) {text line : List Char}
    {lines : List (List Char)} (h : splitlines text = line :: lines) :
    splitlines (c :: text) = (c :: line) :: lines := by
  cases text with
  | nil => cases h
  | cons d rest =>
    have hreturn : ¬ (c = '\r' ∧ d = '\n') := by
      rintro ⟨rfl, -⟩
      exact absurd hc (by decide)
    rw [splitlines, if_neg hreturn, hc, if_neg Bool.false_ne_true, h]

/-- A line goes up to the newline behind it. -/
theorem splitlines_append {line : List Char} (hline : ∀ c ∈ line, isBreak c = false)
    (text : List Char) : splitlines (line ++ '\n' :: text) = line :: splitlines text := by
  induction line with
  | nil => exact splitlines_newline text
  | cons c line ih =>
    obtain ⟨hc, hrest⟩ := List.forall_mem_cons.mp hline
    rw [List.cons_append]
    exact splitlines_cons hc (ih hrest)

/-- A text that nothing ends is one line. -/
theorem splitlines_line {line : List Char} (hline : ∀ c ∈ line, isBreak c = false)
    (hne : line ≠ []) : splitlines line = [line] := by
  induction line with
  | nil => exact absurd rfl hne
  | cons c line ih =>
    obtain ⟨hc, hrest⟩ := List.forall_mem_cons.mp hline
    cases line with
    | nil => rw [splitlines, hc, if_neg Bool.false_ne_true]
    | cons d line => exact splitlines_cons hc (ih hrest (List.cons_ne_nil d line))

/-- Splitting gives back what was joined, unless the last line is empty. -/
theorem splitlines_joinLines {lines : List (List Char)} (h : Unbroken lines)
    (hlast : lines.getLast? ≠ some []) : splitlines (joinLines lines) = lines := by
  induction lines with
  | nil => rfl
  | cons line lines ih =>
    obtain ⟨hline, hrest⟩ := List.forall_mem_cons.mp h
    cases lines with
    | nil =>
      rw [joinLines_singleton]
      exact splitlines_line hline fun hempty => hlast (congrArg some hempty)
    | cons next lines =>
      rw [joinLines_cons line (List.cons_ne_nil next lines), splitlines_append hline, ih hrest]
      rwa [List.getLast?_cons_cons] at hlast

/-- No line of a text has a character that ends lines. -/
theorem unbroken_splitlines (text : List Char) : Unbroken (splitlines text) := by
  have hcons : ∀ {c : Char} {text : List Char}, isBreak c = false → Unbroken (splitlines text) →
      splitlines text ≠ [] → Unbroken (splitlines (c :: text)) := by
    intro c text hc hrest hne
    cases hlines : splitlines text with
    | nil => exact absurd hlines hne
    | cons line lines =>
      rw [hlines] at hrest
      obtain ⟨hline, hlines'⟩ := List.forall_mem_cons.mp hrest
      rw [splitlines_cons hc hlines]
      exact List.forall_mem_cons.mpr ⟨List.forall_mem_cons.mpr ⟨hc, hline⟩, hlines'⟩
  have hempty : ∀ {lines}, Unbroken lines → Unbroken ([] :: lines) := fun h =>
    List.forall_mem_cons.mpr ⟨fun c hc => absurd hc List.not_mem_nil, h⟩
  induction text using splitlines.induct with
  | case1 => exact fun line hline => absurd hline List.not_mem_nil
  | case2 c hc =>
    rw [splitlines, if_pos hc]
    exact hempty fun line hline => absurd hline List.not_mem_nil
  | case3 c hc =>
    rw [splitlines, if_neg hc]
    intro line hline x hx
    rw [List.mem_singleton.mp hline, List.mem_singleton] at hx
    rw [hx, Bool.eq_false_iff]
    exact hc
  | case4 c d rest hreturn ih =>
    rw [splitlines, if_pos hreturn]
    exact hempty ih
  | case5 c d rest hreturn hc ih =>
    rw [splitlines, if_neg hreturn, if_pos hc]
    exact hempty ih
  | case6 c d rest hreturn hc hnil ih =>
    exact absurd hnil (splitlines_ne_nil (List.cons_ne_nil d rest))
  | case7 c d rest hreturn hc line lines hlines ih =>
    exact hcons (Bool.eq_false_iff.mpr hc) ih (splitlines_ne_nil (List.cons_ne_nil d rest))

/-! ## Joining again -/

theorem normalise_ne_nil {text : List Char} (h : text ≠ []) : normalise text ≠ [] := by
  cases text with
  | nil => exact absurd rfl h
  | cons c text =>
    cases text with
    | nil => exact List.cons_ne_nil _ _
    | cons d rest =>
      rw [normalise]
      split_ifs <;> exact List.cons_ne_nil _ _

theorem chop_cons (c : Char) {text : List Char} (h : text ≠ []) :
    chop (c :: text) = c :: chop text := by
  cases text with
  | nil => exact absurd rfl h
  | cons d rest =>
    rw [chop, chop, List.getLast?_cons_cons]
    split_ifs
    · rw [List.dropLast_cons_cons]
    · rfl

/-- The lines of a text, joined again, are the text but for what ends its lines. -/
theorem joinLines_splitlines (text : List Char) :
    joinLines (splitlines text) = chop (normalise text) := by
  have hempty : ∀ rest, joinLines (splitlines rest) = chop (normalise rest) →
      joinLines ([] :: splitlines rest) = chop ('\n' :: normalise rest) := by
    intro rest ih
    cases rest with
    | nil => rfl
    | cons d rest =>
      rw [joinLines_cons [] (splitlines_ne_nil (List.cons_ne_nil d rest)), ih,
        chop_cons '\n' (normalise_ne_nil (List.cons_ne_nil d rest)), List.nil_append]
  induction text using splitlines.induct with
  | case1 => rfl
  | case2 c hc =>
    rw [splitlines, if_pos hc, normalise, if_pos hc]
    rfl
  | case3 c hc =>
    have hnewline : ¬ some c = some '\n' := by
      intro h
      rw [Option.some.inj h] at hc
      exact hc (by decide)
    rw [splitlines, if_neg hc, normalise, if_neg hc, chop, List.getLast?_singleton, if_neg hnewline]
    rfl
  | case4 c d rest hreturn ih =>
    rw [splitlines, if_pos hreturn, normalise, if_pos hreturn]
    exact hempty rest ih
  | case5 c d rest hreturn hc ih =>
    rw [splitlines, if_neg hreturn, if_pos hc, normalise, if_neg hreturn, if_pos hc]
    exact hempty (d :: rest) ih
  | case6 c d rest hreturn hc hnil ih =>
    exact absurd hnil (splitlines_ne_nil (List.cons_ne_nil d rest))
  | case7 c d rest hreturn hc line lines hlines ih =>
    have hrest : chop (c :: normalise (d :: rest)) = c :: chop (normalise (d :: rest)) :=
      chop_cons c (normalise_ne_nil (List.cons_ne_nil d rest))
    rw [splitlines_cons (Bool.eq_false_iff.mpr hc) hlines, normalise, if_neg hreturn, if_neg hc,
      hrest, ← ih, hlines]
    cases lines <;> rfl

/-- Texts of lines join to the text of all their lines. -/
theorem joinLines_append {lines more : List (List Char)} (hlines : lines ≠ []) (hmore : more ≠ []) :
    joinLines (lines ++ more) = joinLines lines ++ '\n' :: joinLines more := by
  induction lines with
  | nil => exact absurd rfl hlines
  | cons line lines ih =>
    cases lines with
    | nil =>
      rw [List.singleton_append, joinLines_singleton]
      exact joinLines_cons line hmore
    | cons next lines =>
      rw [List.cons_append, joinLines_cons line (List.append_ne_nil_of_right_ne_nil _ hmore),
        ih (List.cons_ne_nil _ _), joinLines_cons line (List.cons_ne_nil _ _), List.append_assoc,
        List.cons_append]

theorem joinLines_flatten {groups : List (List (List Char))} (h : ∀ lines ∈ groups, lines ≠ []) :
    joinLines (groups.map joinLines) = joinLines groups.flatten := by
  induction groups with
  | nil => rfl
  | cons lines groups ih =>
    obtain ⟨hlines, hrest⟩ := List.forall_mem_cons.mp h
    cases groups with
    | nil => rw [List.flatten_singleton, List.map_singleton, joinLines_singleton]
    | cons more groups =>
      have hmore : (more :: groups).flatten ≠ [] := by
        rw [List.flatten_cons]
        exact List.append_ne_nil_of_left_ne_nil (hrest more List.mem_cons_self) _
      rw [List.flatten_cons, joinLines_append hlines hmore, ← ih hrest]
      rfl

/-- The last line of a text ends it. -/
theorem suffix_joinLines (front : List (List Char)) (line : List Char) :
    line <:+ joinLines (front ++ [line]) := by
  cases front with
  | nil =>
    refine ⟨[], ?_⟩
    rw [List.nil_append, List.nil_append, joinLines_singleton]
  | cons first front =>
    rw [joinLines_append (List.cons_ne_nil first front) (List.cons_ne_nil line []),
      joinLines_singleton, List.append_cons]
    exact List.suffix_append _ line

/-! ## Stripping -/

/-- What is dropped at the end of two lists goes into the first only if it takes the second. -/
theorem rdropWhile_append {α : Type} (p : α → Bool) (l m : List α) :
    (l ++ m).rdropWhile p =
      if m.rdropWhile p = [] then l.rdropWhile p else l ++ m.rdropWhile p := by
  rw [List.rdropWhile, List.reverse_append, List.dropWhile_append]
  split_ifs with hm hm' hm'
  · rfl
  · exact absurd (List.reverse_eq_nil_iff.mpr (List.isEmpty_iff.mp hm)) hm'
  · exact absurd (List.isEmpty_iff.mpr (List.reverse_eq_nil_iff.mp hm')) hm
  · rw [List.reverse_append, List.reverse_reverse]
    rfl

theorem rstrip_append (text more : List Char) :
    rstrip (text ++ more) = if rstrip more = [] then rstrip text else text ++ rstrip more :=
  rdropWhile_append isSpace text more

theorem rstrip_cons (c : Char) (text : List Char) :
    rstrip (c :: text) =
      if rstrip text = [] then (if isSpace c then [] else [c]) else c :: rstrip text := by
  have happend := rstrip_append [c] text
  have hsingle : rstrip [c] = if isSpace c then [] else [c] := List.rdropWhile_singleton isSpace c
  rwa [List.singleton_append, List.singleton_append, hsingle] at happend

theorem lstrip_blank {text : List Char} : lstrip text = [] ↔ isBlank text = true := by
  rw [lstrip, List.dropWhile_eq_nil_iff, isBlank, List.all_eq_true]

theorem rstrip_blank {text : List Char} : rstrip text = [] ↔ isBlank text = true := by
  rw [rstrip, List.rdropWhile_eq_nil_iff, isBlank, List.all_eq_true]

/-- Stripping in front leaves the end of a text as it is. -/
theorem getLast?_rstrip_lstrip (text : List Char) :
    (rstrip (lstrip text)).getLast? = (rstrip text).getLast? := by
  induction text with
  | nil => rfl
  | cons c text ih =>
    by_cases hc : isSpace c = true
    · rw [lstrip, List.dropWhile_cons_of_pos hc, ← lstrip, ih, rstrip_cons, if_pos hc]
      split_ifs with htext
      · rw [htext]
      · rw [List.getLast?_cons, List.getLast?_eq_some_getLast htext]
        rfl
    · rw [lstrip, List.dropWhile_cons_of_neg hc]

/-- What is left when the blank lines in front are dropped and the next one is stripped. -/
def lstripLines : List (List Char) → List (List Char)
  | [] => []
  | line :: lines => if isBlank line then lstripLines lines else lstrip line :: lines

/-- What is left when the blank lines at the end are dropped and the one before is stripped. -/
def rstripLines : List (List Char) → List (List Char)
  | [] => []
  | line :: lines =>
    if rstripLines lines = [] then (if isBlank line then [] else [rstrip line])
    else line :: rstripLines lines

theorem lstrip_joinLines (lines : List (List Char)) :
    lstrip (joinLines lines) = joinLines (lstripLines lines) := by
  induction lines with
  | nil => rfl
  | cons line lines ih =>
    rw [lstripLines]
    cases lines with
    | nil =>
      rw [joinLines_singleton]
      split_ifs with hblank
      · exact lstrip_blank.mpr hblank
      · rw [joinLines_singleton]
    | cons next lines =>
      have hnext : next :: lines ≠ [] := List.cons_ne_nil next lines
      rw [joinLines_cons line hnext, lstrip, List.dropWhile_append]
      split_ifs with hempty hblank hblank
      · rw [List.dropWhile_cons_of_pos (by decide)]
        exact ih
      · exact absurd (lstrip_blank.mp (List.isEmpty_iff.mp hempty)) hblank
      · exact absurd (List.isEmpty_iff.mpr (lstrip_blank.mpr hblank)) hempty
      · rw [joinLines_cons _ hnext]
        rfl

/-- Lines that are stripped at the end do not end in an empty one. -/
theorem getLast?_rstripLines (lines : List (List Char)) :
    (rstripLines lines).getLast? ≠ some [] := by
  induction lines with
  | nil => exact Option.some_ne_none _ |>.symm
  | cons line lines ih =>
    rw [rstripLines]
    split_ifs with hrest hblank
    · exact Option.some_ne_none _ |>.symm
    · intro h
      rw [List.getLast?_singleton, Option.some.injEq] at h
      exact hblank (rstrip_blank.mp h)
    · rw [List.getLast?_cons, List.getLast?_eq_some_getLast hrest] at *
      exact ih

theorem joinLines_eq_nil {lines : List (List Char)} (h : lines.getLast? ≠ some []) :
    joinLines lines = [] ↔ lines = [] := by
  cases lines with
  | nil => exact iff_of_true rfl rfl
  | cons line lines =>
    have hne : joinLines (line :: lines) ≠ [] := by
      cases lines with
      | nil =>
        rw [joinLines_singleton]
        exact fun hempty => h (congrArg some hempty)
      | cons next lines =>
        rw [joinLines_cons line (List.cons_ne_nil next lines)]
        exact List.append_ne_nil_of_right_ne_nil _ (List.cons_ne_nil _ _)
    exact iff_of_false hne (List.cons_ne_nil line lines)

theorem rstrip_joinLines (lines : List (List Char)) :
    rstrip (joinLines lines) = joinLines (rstripLines lines) := by
  induction lines with
  | nil => rfl
  | cons line lines ih =>
    rw [rstripLines]
    cases lines with
    | nil =>
      rw [rstripLines, if_pos rfl, joinLines_singleton]
      split_ifs with hblank
      · exact rstrip_blank.mpr hblank
      · rw [joinLines_singleton]
    | cons next lines =>
      have hnil := joinLines_eq_nil (getLast?_rstripLines (next :: lines))
      have hrest : rstrip ('\n' :: joinLines (next :: lines)) =
          if rstripLines (next :: lines) = [] then []
          else '\n' :: joinLines (rstripLines (next :: lines)) := by
        rw [rstrip_cons, if_pos (by decide : isSpace '\n' = true), ih]
        exact if_congr hnil rfl rfl
      rw [joinLines_cons line (List.cons_ne_nil next lines), rstrip_append, hrest]
      by_cases hlast : rstripLines (next :: lines) = []
      · rw [if_pos hlast, if_pos rfl, if_pos hlast]
        split_ifs with hblank
        · exact rstrip_blank.mpr hblank
        · rw [joinLines_singleton]
      · rw [if_neg hlast, if_neg (List.cons_ne_nil _ _), if_neg hlast, joinLines_cons line hlast]

/-- A property of lines that stripping keeps is kept when outer lines are dropped. -/
theorem forall_mem_lstripLines {P : List Char → Prop} (hstrip : ∀ line, P line → P (lstrip line))
    {lines : List (List Char)} (h : ∀ line ∈ lines, P line) :
    ∀ line ∈ lstripLines lines, P line := by
  induction lines with
  | nil => exact h
  | cons line lines ih =>
    obtain ⟨hline, hrest⟩ := List.forall_mem_cons.mp h
    rw [lstripLines]
    split_ifs
    · exact ih hrest
    · exact List.forall_mem_cons.mpr ⟨hstrip line hline, hrest⟩

theorem forall_mem_rstripLines {P : List Char → Prop} (hstrip : ∀ line, P line → P (rstrip line))
    {lines : List (List Char)} (h : ∀ line ∈ lines, P line) :
    ∀ line ∈ rstripLines lines, P line := by
  induction lines with
  | nil => exact h
  | cons line lines ih =>
    obtain ⟨hline, hrest⟩ := List.forall_mem_cons.mp h
    rw [rstripLines]
    split_ifs
    · exact fun line hline => absurd hline List.not_mem_nil
    · exact fun l hl => List.mem_singleton.mp hl ▸ hstrip line hline
    · exact List.forall_mem_cons.mpr ⟨hline, ih hrest⟩

/-- The lines of a stripped text. -/
theorem splitlines_strip {lines : List (List Char)} (h : Unbroken lines) :
    splitlines (strip (joinLines lines)) = rstripLines (lstripLines lines) := by
  have hfront : Unbroken (lstripLines lines) := forall_mem_lstripLines
    (fun line hline c hc => hline c ((List.dropWhile_suffix isSpace).subset hc)) h
  have hboth : Unbroken (rstripLines (lstripLines lines)) := forall_mem_rstripLines
    (fun line hline c hc => hline c ((List.rdropWhile_prefix isSpace line).subset hc)) hfront
  rw [strip, lstrip_joinLines, rstrip_joinLines]
  exact splitlines_joinLines hboth (getLast?_rstripLines _)

end Munavvar.Lines
