import Mathlib.Algebra.BigOperators.Group.List.Basic
import Mathlib.Algebra.Group.Nat.Even
import Mathlib.Algebra.GroupWithZero.Nat
import Munavvar.Lines

/-!
# Scripts of statements

The scripts that create the functions and the triggers of the database are split
into statements, which are executed one by one. A statement ends with a line that
ends with a semicolon, unless the line is in the body of a function, which stands
between two dollar quotes. The pieces keep all of the script, and only the end of
a piece ends a statement.
-/

namespace Munavvar.SqlScripts

open Munavvar.Lines

/-! ## The scanner -/

/-- `str.count` of `$$`. -/
def countDollars : List Char → ℕ
  | [] => 0
  | [_] => 0
  | c :: d :: rest =>
    if c = '$' ∧ d = '$' then countDollars rest + 1 else countDollars (d :: rest)

/-- Whether a line ends with a semicolon, without the white space behind it. -/
def endsWithSemicolon (line : List Char) : Bool := (rstrip line).getLast? = some ';'

/-- What is done so far. -/
structure Scan where
  /-- The statements. -/
  stmts : List (List Char)
  /-- The lines of the next statement. -/
  buf : List (List Char)
  /-- Whether a body is open. -/
  insideDollar : Bool
deriving DecidableEq

/-- The text of lines as a statement, if it is not blank. -/
def flush (stmts buf : List (List Char)) : List (List Char) :=
  let stmt := strip (joinLines buf)
  if stmt ≠ [] then stmts ++ [stmt] else stmts

/-- An odd number of quotes on a line opens or closes a body. -/
def toggle (insideDollar : Bool) (line : List Char) : Bool :=
  if countDollars line % 2 = 1 then !insideDollar else insideDollar

/-- One line of a script. -/
def Scan.step (s : Scan) (line : List Char) : Scan :=
  let buf := s.buf ++ [line]
  let insideDollar := toggle s.insideDollar line
  if !insideDollar && endsWithSemicolon line then ⟨flush s.stmts buf, [], insideDollar⟩
  else ⟨s.stmts, buf, insideDollar⟩

/-- `_split_sql`. -/
def splitSql (raw : List Char) : List (List Char) :=
  let s := (splitlines raw).foldl Scan.step ⟨[], [], false⟩
  flush s.stmts s.buf

/-! ## Dollar quotes -/

theorem countDollars_cons {c : Char} (hc : c ≠ '$') (text : List Char) :
    countDollars (c :: text) = countDollars text := by
  cases text with
  | nil => rfl
  | cons d rest => rw [countDollars, if_neg fun h => hc h.1]

theorem countDollars_concat (text : List Char) {c : Char} (hc : c ≠ '$') :
    countDollars (text ++ [c]) = countDollars text := by
  induction text using countDollars.induct with
  | case1 => rfl
  | case2 d =>
    have hpair : ¬ (d = '$' ∧ c = '$') := fun h => hc h.2
    rw [List.singleton_append, countDollars, countDollars, if_neg hpair, countDollars]
  | case3 d e rest hdollar ih =>
    rw [List.cons_append, List.cons_append, countDollars, if_pos hdollar, ih, countDollars,
      if_pos hdollar]
  | case4 d e rest hdollar ih =>
    rw [List.cons_append, List.cons_append, countDollars, if_neg hdollar, ← List.cons_append, ih,
      countDollars, if_neg hdollar]

theorem ne_dollar_of_isSpace {c : Char} (hc : isSpace c = true) : c ≠ '$' := by
  rintro rfl
  exact absurd hc (by decide)

theorem countDollars_lstrip (text : List Char) :
    countDollars (lstrip text) = countDollars text := by
  induction text with
  | nil => rfl
  | cons c text ih =>
    by_cases hc : isSpace c = true
    · rw [lstrip, List.dropWhile_cons_of_pos hc, ← lstrip, ih,
        countDollars_cons (ne_dollar_of_isSpace hc)]
    · rw [lstrip, List.dropWhile_cons_of_neg hc]

theorem countDollars_rstrip (text : List Char) :
    countDollars (rstrip text) = countDollars text := by
  induction text using List.reverseRecOn with
  | nil => rfl
  | append_singleton text c ih =>
    by_cases hc : isSpace c = true
    · rw [rstrip, List.rdropWhile_concat_pos _ _ _ hc, ← rstrip, ih,
        countDollars_concat text (ne_dollar_of_isSpace hc)]
    · rw [rstrip, List.rdropWhile_concat_neg _ _ _ hc]

theorem countDollars_blank {line : List Char} (h : isBlank line = true) :
    countDollars line = 0 := by
  rw [← countDollars_lstrip, lstrip_blank.mpr h, countDollars]

/-- The dollar quotes of lines. -/
def dollars (lines : List (List Char)) : ℕ := (lines.map countDollars).sum

@[simp] theorem dollars_nil : dollars [] = 0 := rfl

@[simp] theorem dollars_cons (line : List Char) (lines : List (List Char)) :
    dollars (line :: lines) = countDollars line + dollars lines := List.sum_cons

@[simp] theorem dollars_append (lines more : List (List Char)) :
    dollars (lines ++ more) = dollars lines + dollars more := by
  rw [dollars, List.map_append, List.sum_append]
  rfl

theorem dollars_lstripLines (lines : List (List Char)) :
    dollars (lstripLines lines) = dollars lines := by
  induction lines with
  | nil => rfl
  | cons line lines ih =>
    rw [lstripLines]
    split_ifs with hblank
    · rw [ih, dollars_cons, countDollars_blank hblank, Nat.zero_add]
    · rw [dollars_cons, dollars_cons, countDollars_lstrip]

theorem dollars_rstripLines (lines : List (List Char)) :
    dollars (rstripLines lines) = dollars lines := by
  induction lines with
  | nil => rfl
  | cons line lines ih =>
    rw [rstripLines, dollars_cons]
    split_ifs with hrest hblank
    · rw [← ih, hrest, countDollars_blank hblank, dollars_nil]
    · rw [← ih, hrest, dollars_cons, countDollars_rstrip]
    · rw [dollars_cons, ih]

/-! ## Where statements end -/

/-- The line ends a statement: it ends with a semicolon outside of a body. -/
def EndsAt (before : List (List Char)) (line : List Char) : Prop :=
  Even (dollars (before ++ [line])) ∧ endsWithSemicolon line = true

/-- No line ends a statement. -/
def Open (lines : List (List Char)) : Prop :=
  ∀ before line after, lines = before ++ line :: after → ¬ EndsAt before line

/-- No line ends a statement when there are quotes before the lines. -/
def OpenAfter : ℕ → List (List Char) → Prop
  | _, [] => True
  | n, line :: lines =>
    ¬ (Even (n + countDollars line) ∧ endsWithSemicolon line = true) ∧
      OpenAfter (n + countDollars line) lines

theorem openAfter_iff {n : ℕ} {lines : List (List Char)} :
    OpenAfter n lines ↔ ∀ before line after, lines = before ++ line :: after →
      ¬ (Even (n + dollars (before ++ [line])) ∧ endsWithSemicolon line = true) := by
  induction lines generalizing n with
  | nil =>
    constructor
    · intro _ before line after h
      exact absurd h.symm (List.append_ne_nil_of_right_ne_nil _ (List.cons_ne_nil _ _))
    · exact fun _ => trivial
  | cons first lines ih =>
    rw [OpenAfter, ih]
    constructor
    · rintro ⟨hfirst, hrest⟩ before line after h
      cases before with
      | nil =>
        obtain ⟨rfl, rfl⟩ := List.cons.inj h
        rwa [List.nil_append, dollars_cons, dollars_nil, Nat.add_zero]
      | cons _ before =>
        obtain ⟨rfl, hlines⟩ := List.cons.inj h
        have hend := hrest before line after hlines
        rwa [List.cons_append, dollars_cons, ← Nat.add_assoc]
    · intro h
      constructor
      · have hfirst := h [] first lines rfl
        rwa [List.nil_append, dollars_cons, dollars_nil, Nat.add_zero] at hfirst
      · intro before line after hlines
        have hend := h (first :: before) line after (congrArg (first :: ·) hlines)
        rwa [List.cons_append, dollars_cons, ← Nat.add_assoc] at hend

theorem open_iff {lines : List (List Char)} : Open lines ↔ OpenAfter 0 lines := by
  rw [openAfter_iff]
  simp only [Nat.zero_add]
  rfl

theorem endsWithSemicolon_lstrip (line : List Char) :
    endsWithSemicolon (lstrip line) = endsWithSemicolon line := by
  rw [endsWithSemicolon, getLast?_rstrip_lstrip]
  rfl

theorem endsWithSemicolon_rstrip (line : List Char) :
    endsWithSemicolon (rstrip line) = endsWithSemicolon line := by
  rw [endsWithSemicolon, rstrip, rstrip, List.rdropWhile_idempotent]
  rfl

/-! ## Stripped statements -/

theorem openAfter_lstripLines {n : ℕ} {lines : List (List Char)} (h : OpenAfter n lines) :
    OpenAfter n (lstripLines lines) := by
  induction lines with
  | nil => exact h
  | cons line lines ih =>
    obtain ⟨hline, hrest⟩ := h
    rw [lstripLines]
    split_ifs with hblank
    · rw [countDollars_blank hblank, Nat.add_zero] at hrest
      exact ih hrest
    · rw [OpenAfter, countDollars_lstrip, endsWithSemicolon_lstrip]
      exact ⟨hline, hrest⟩

theorem openAfter_rstripLines {n : ℕ} {lines : List (List Char)} (h : OpenAfter n lines) :
    OpenAfter n (rstripLines lines) := by
  induction lines generalizing n with
  | nil => exact h
  | cons line lines ih =>
    obtain ⟨hline, hrest⟩ := h
    rw [rstripLines]
    split_ifs with hlast hblank
    · trivial
    · rw [OpenAfter, countDollars_rstrip, endsWithSemicolon_rstrip]
      exact ⟨hline, trivial⟩
    · exact ⟨hline, ih hrest⟩

theorem dropLast_lstripLines (lines : List (List Char)) :
    (lstripLines lines).dropLast = lstripLines lines.dropLast := by
  induction lines with
  | nil => rfl
  | cons line lines ih =>
    cases lines with
    | nil =>
      rw [lstripLines]
      split_ifs <;> rfl
    | cons next lines =>
      have hfirst : ∀ rest, lstripLines (line :: rest) =
          if isBlank line then lstripLines rest else lstrip line :: rest := fun rest => rfl
      rw [List.dropLast_cons_cons, hfirst, hfirst]
      split_ifs
      · exact ih
      · rfl

/-- The lines before the last one stay without the end of a statement. -/
theorem openAfter_dropLast_rstripLines {n : ℕ} {lines : List (List Char)}
    (h : OpenAfter n lines.dropLast) : OpenAfter n (rstripLines lines).dropLast := by
  induction lines generalizing n with
  | nil => exact h
  | cons line lines ih =>
    rw [rstripLines]
    split_ifs with hlast hblank
    · trivial
    · trivial
    · cases lines with
      | nil => exact absurd rfl hlast
      | cons next lines =>
        obtain ⟨hline, hrest⟩ := h
        rw [List.dropLast_cons_of_ne_nil hlast]
        exact ⟨hline, ih hrest⟩

/-- The text of lines as a statement. -/
def piece (lines : List (List Char)) : List Char := strip (joinLines lines)

theorem open_piece {lines : List (List Char)} (hlines : Unbroken lines) (h : Open lines) :
    Open (splitlines (piece lines)) := by
  rw [piece, splitlines_strip hlines, open_iff]
  exact openAfter_rstripLines (openAfter_lstripLines (open_iff.mp h))

theorem open_dropLast_piece {lines : List (List Char)} (hlines : Unbroken lines)
    (h : Open lines.dropLast) : Open (splitlines (piece lines)).dropLast := by
  rw [piece, splitlines_strip hlines, open_iff]
  apply openAfter_dropLast_rstripLines
  rw [dropLast_lstripLines]
  exact openAfter_lstripLines (open_iff.mp h)

theorem dollars_piece {lines : List (List Char)} (hlines : Unbroken lines) :
    dollars (splitlines (piece lines)) = dollars lines := by
  rw [piece, splitlines_strip hlines, dollars_rstripLines, dollars_lstripLines]

/-- The end of the last line is the end of the statement. -/
theorem getLast?_piece (front : List (List Char)) {line : List Char}
    (h : endsWithSemicolon line = true) : (piece (front ++ [line])).getLast? = some ';' := by
  have hlast : (rstrip line).getLast? = some ';' := of_decide_eq_true h
  have hne : rstrip line ≠ [] := by
    intro hnil
    rw [hnil] at hlast
    cases hlast
  obtain ⟨before, hbefore⟩ := suffix_joinLines front line
  rw [piece, strip, getLast?_rstrip_lstrip, ← hbefore, rstrip_append, if_neg hne,
    List.getLast?_append_of_ne_nil _ hne, hlast]

/-! ## Runs of the scanner -/

/-- The lines of a statement: only the last one ends it. -/
def Complete (lines : List (List Char)) : Prop :=
  ∃ front line, lines = front ++ [line] ∧ Open front ∧ EndsAt front line

/-- What the scanner knows after some lines of the script. -/
structure Scanned (consumed : List (List Char)) (s : Scan) : Prop where
  /-- The lines are those of the statements and those of the next one. -/
  groups : ∃ groups : List (List (List Char)), groups.flatten ++ s.buf = consumed ∧
    s.stmts = groups.map piece ∧ ∀ lines ∈ groups, Complete lines
  /-- The flag counts the quotes of the next statement. -/
  inside : s.insideDollar = false ↔ Even (dollars s.buf)
  /-- The next statement has not ended. -/
  isOpen : Open s.buf

theorem open_nil : Open [] := open_iff.mpr trivial

theorem Open.dropLast {lines : List (List Char)} (h : Open lines) : Open lines.dropLast := by
  intro before line after hlines
  cases lines with
  | nil => exact absurd hlines.symm (List.append_ne_nil_of_right_ne_nil _ (List.cons_ne_nil _ _))
  | cons first rest =>
    have hne : first :: rest ≠ [] := List.cons_ne_nil first rest
    apply h before line (after ++ [(first :: rest).getLast hne])
    rw [← List.cons_append, ← List.append_assoc, ← hlines, List.dropLast_append_getLast]

theorem open_concat {front : List (List Char)} {line : List Char} (hfront : Open front)
    (hline : ¬ EndsAt front line) : Open (front ++ [line]) := by
  intro before other after h
  rcases List.append_eq_append_iff.mp h with ⟨more, hbefore, hmore⟩ | ⟨more, hfront', hmore⟩
  · cases more with
    | nil =>
      obtain ⟨rfl, -⟩ := List.cons.inj hmore
      rw [hbefore, List.append_nil]
      exact hline
    | cons x more =>
      have hlength := congrArg List.length hmore
      simp only [List.length_cons, List.length_append, List.length_nil] at hlength
      omega
  · cases more with
    | nil =>
      obtain ⟨rfl, -⟩ := List.cons.inj hmore
      rwa [hfront', List.append_nil] at hline
    | cons x more =>
      obtain ⟨rfl, -⟩ := List.cons.inj hmore
      exact hfront before _ more hfront'

theorem flush_eq (stmts buf : List (List Char)) :
    flush stmts buf = stmts ++ ([buf].map piece).filter fun p => p ≠ [] := by
  rw [flush, List.map_singleton, piece]
  split_ifs with hblank
  · rw [List.filter_cons_of_pos (by exact decide_eq_true hblank), List.filter_nil]
  · rw [List.filter_cons_of_neg (by simpa using hblank), List.filter_nil, List.append_nil]

theorem Complete.piece_ne_nil {lines : List (List Char)} (h : Complete lines) :
    piece lines ≠ [] := by
  obtain ⟨front, line, rfl, -, -, hline⟩ := h
  intro hnil
  have hlast := getLast?_piece front hline
  rw [hnil] at hlast
  cases hlast

/-- Complete statements are not blank. -/
theorem filter_complete {groups : List (List (List Char))} (h : ∀ lines ∈ groups, Complete lines) :
    (groups.map piece).filter (fun p => p ≠ []) = groups.map piece := by
  rw [List.filter_eq_self]
  intro p hp
  obtain ⟨lines, hmem, rfl⟩ := List.mem_map.mp hp
  exact decide_eq_true (h lines hmem).piece_ne_nil

theorem Complete.ne_nil {lines : List (List Char)} (h : Complete lines) : lines ≠ [] := by
  obtain ⟨front, line, rfl, -, -, -⟩ := h
  exact List.append_ne_nil_of_right_ne_nil front (List.cons_ne_nil line [])

/-- The flag after a line counts the quotes of the line as well. -/
theorem toggle_iff {inside : Bool} {buf : List (List Char)} (line : List Char)
    (h : inside = false ↔ Even (dollars buf)) :
    toggle inside line = false ↔ Even (dollars (buf ++ [line])) := by
  rw [dollars_append, dollars_cons, dollars_nil, Nat.add_zero, Nat.even_add, ← h, toggle]
  split_ifs with hodd
  · have hline : ¬ Even (countDollars line) := Nat.not_even_iff.mpr hodd
    cases inside <;> simp [hline]
  · have hline : Even (countDollars line) := Nat.even_iff.mpr (by omega)
    cases inside <;> simp [hline]

/-- One line keeps what the scanner knows. -/
theorem Scanned.step {consumed : List (List Char)} {s : Scan} (h : Scanned consumed s)
    (line : List Char) : Scanned (consumed ++ [line]) (s.step line) := by
  obtain ⟨groups, hconsumed, hstmts, hcomplete⟩ := h.groups
  have hinside := toggle_iff line h.inside
  rw [Scan.step]
  split_ifs with hend
  · rw [Bool.and_eq_true, Bool.not_eq_true'] at hend
    have hbuf : Complete (s.buf ++ [line]) :=
      ⟨s.buf, line, rfl, h.isOpen, hinside.mp hend.1, hend.2⟩
    constructor
    · refine ⟨groups ++ [s.buf ++ [line]], ?_, ?_, ?_⟩
      · rw [List.flatten_append, List.flatten_singleton, List.append_nil, ← List.append_assoc,
          hconsumed]
      · rw [flush_eq, filter_complete (List.forall_mem_singleton.mpr hbuf), hstmts,
          List.map_append]
      · intro lines hlines
        rcases List.mem_append.mp hlines with hold | hnew
        · exact hcomplete lines hold
        · rwa [List.mem_singleton.mp hnew]
    · exact iff_of_true hend.1 ⟨0, rfl⟩
    · exact open_nil
  · constructor
    · refine ⟨groups, ?_, hstmts, hcomplete⟩
      rw [← List.append_assoc, hconsumed]
    · exact hinside
    · apply open_concat h.isOpen
      rintro ⟨heven, hline⟩
      rw [hinside.mpr heven, hline] at hend
      exact hend rfl

/-- All lines keep what the scanner knows. -/
theorem Scanned.foldl {consumed : List (List Char)} {s : Scan} (h : Scanned consumed s)
    (lines : List (List Char)) : Scanned (consumed ++ lines) (lines.foldl Scan.step s) := by
  induction lines generalizing consumed s with
  | nil => rwa [List.append_nil]
  | cons line lines ih =>
    rw [List.append_cons]
    exact ih (h.step line)

theorem scanned_script (raw : List Char) :
    Scanned (splitlines raw) ((splitlines raw).foldl Scan.step ⟨[], [], false⟩) := by
  have hstart : Scanned [] ⟨[], [], false⟩ := by
    constructor
    · exact ⟨[], rfl, rfl, fun lines hlines => absurd hlines List.not_mem_nil⟩
    · exact iff_of_true rfl ⟨0, rfl⟩
    · exact open_nil
  exact hstart.foldl (splitlines raw)

/-- The statements of a script are the texts of the groups that its lines are in. -/
theorem splitSql_groups (raw : List Char) :
    ∃ groups rest : List (List (List Char)), (groups ++ rest).flatten = splitlines raw ∧
      splitSql raw = groups.map piece ++ (rest.map piece).filter (fun p => p ≠ []) ∧
      rest.length ≤ 1 ∧ (∀ lines ∈ groups, Complete lines) ∧
      ∀ lines ∈ rest, lines ≠ [] ∧ Open lines := by
  have hscan := scanned_script raw
  obtain ⟨groups, hlines, hstmts, hcomplete⟩ := hscan.groups
  have hopen := hscan.isOpen
  rw [splitSql]
  generalize (splitlines raw).foldl Scan.step ⟨[], [], false⟩ = s at hlines hstmts hopen ⊢
  cases hbuf : s.buf with
  | nil =>
    refine ⟨groups, [], ?_, ?_, Nat.zero_le 1, hcomplete, ?_⟩
    · rwa [hbuf, ← List.flatten_nil, ← List.flatten_append] at hlines
    · rw [hstmts, flush_eq]
      rfl
    · exact fun lines hmem => absurd hmem List.not_mem_nil
  | cons first buf =>
    refine ⟨groups, [s.buf], ?_, ?_, Nat.le_refl 1, hcomplete, ?_⟩
    · rwa [List.flatten_append, List.flatten_singleton]
    · rw [hstmts, flush_eq, hbuf]
    · intro lines hmem
      rw [List.mem_singleton.mp hmem]
      exact ⟨hbuf ▸ List.cons_ne_nil first buf, hopen⟩

/-! ## Nothing is lost or cut -/

/-- The pieces of a text are parts of it that newlines join, stripped and without the blank ones. -/
def PiecesOf (text : List Char) (pieces : List (List Char)) : Prop :=
  ∃ parts, joinLines parts = text ∧ pieces = (parts.map strip).filter fun p => p ≠ []

/-- All of the script is in the statements. All of them but an unterminated one at the end
are terminated outside of a body. None has the end of a statement before its last line. -/
theorem splitSql_exact (raw : List Char) :
    PiecesOf (chop (normalise raw)) (splitSql raw) ∧
    (∃ complete rest, splitSql raw = complete ++ rest ∧ rest.length ≤ 1 ∧
      (∀ p ∈ complete, p.getLast? = some ';' ∧ Even (dollars (splitlines p))) ∧
      ∀ p ∈ rest, Open (splitlines p)) ∧
    ∀ p ∈ splitSql raw, Open (splitlines p).dropLast := by
  obtain ⟨groups, rest, hlines, hsplit, hlength, hcomplete, hrest⟩ := splitSql_groups raw
  have hunbroken : ∀ lines ∈ groups ++ rest, Unbroken lines := by
    intro lines hmem line hline
    apply unbroken_splitlines raw line
    rw [← hlines]
    exact List.mem_flatten.mpr ⟨lines, hmem, hline⟩
  have hgroups : ∀ lines ∈ groups, Unbroken lines := fun lines hmem =>
    hunbroken lines (List.mem_append_left rest hmem)
  have hopen : ∀ p ∈ (rest.map piece).filter (fun p => p ≠ []), Open (splitlines p) := by
    intro p hp
    obtain ⟨lines, hmem, rfl⟩ := List.mem_map.mp (List.mem_filter.mp hp).1
    exact open_piece (hunbroken lines (List.mem_append_right groups hmem)) (hrest lines hmem).2
  constructor
  · refine ⟨(groups ++ rest).map joinLines, ?_, ?_⟩
    · rw [← joinLines_splitlines, ← hlines]
      apply joinLines_flatten
      intro lines hmem
      rcases List.mem_append.mp hmem with hgroup | hlast
      · exact (hcomplete lines hgroup).ne_nil
      · exact (hrest lines hlast).1
    · rw [hsplit, ← filter_complete hcomplete, ← List.filter_append, ← List.map_append,
        List.map_map]
      rfl
  constructor
  · refine ⟨_, _, hsplit, ?_, ?_, hopen⟩
    · have hfilter := List.length_filter_le (fun p => decide (p ≠ [])) (rest.map piece)
      rw [List.length_map] at hfilter
      omega
    · intro p hp
      obtain ⟨lines, hmem, rfl⟩ := List.mem_map.mp hp
      obtain ⟨front, line, rfl, -, heven, hline⟩ := hcomplete lines hmem
      rw [dollars_piece (hgroups _ hmem)]
      exact ⟨getLast?_piece front hline, heven⟩
  · intro p hp
    rw [hsplit] at hp
    rcases List.mem_append.mp hp with hgroup | hlast
    · obtain ⟨lines, hmem, rfl⟩ := List.mem_map.mp hgroup
      obtain ⟨front, line, hline, hfront, -⟩ := hcomplete lines hmem
      apply open_dropLast_piece (hgroups lines hmem)
      rwa [hline, List.dropLast_concat]
    · exact (hopen p hlast).dropLast

/-- The semicolon in the body does not end the statement, the one behind it does. -/
example : splitSql "a $$ b;\nc $$;\nd".toList = ["a $$ b;\nc $$;".toList, "d".toList] := by
  decide

end Munavvar.SqlScripts
