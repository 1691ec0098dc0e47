import Assay.Text.Lines
import Mathlib.Data.List.Forall2

/-!
# Text — what lies between line feeds

`feedLines` cuts a text at its line feeds and at nothing else. `lines` gives the same, except that
a carriage return at the end of a line may be gone (`lines_feedLines`).

* `feedLines_append`: a text in front that is empty or ends with a line feed keeps its own lines.
* `feedLines_feed`: one line feed behind a line under way ends it and adds none.
* `feedLines_unlines`: lines without a line feed in them are read back, so that their text
  determines them (`unlines_inj`).
* `getLast?_lines_unlines`: for the last line this is so whatever the others are.
-/

namespace Assay.Text

/-- Whether a text has no line feed in it. -/
def IsLine (s : String) : Prop := '\n' ∉ s.toList

instance (s : String) : Decidable (IsLine s) := inferInstanceAs (Decidable (¬ _))

@[simp] theorem isLine_append {s t : String} : IsLine (s ++ t) ↔ IsLine s ∧ IsLine t := by
  rw [IsLine, String.toList_append, List.mem_append, not_or]
  rfl

/-! ### Cutting at line feeds -/

/-- The parts of a text between its line feeds. What follows the last one is a part if it is not
empty. -/
def rows (cs : List Char) : List (List Char) :=
  let parts := cs.splitOn '\n'
  if parts.getLast? = some [] then parts.dropLast else parts

/-- The lines of `s`, nothing taken off but the line feeds. -/
def feedLines (s : String) : List String := (rows s.toList).map String.ofList

@[simp] theorem rows_nil : rows [] = [] := rfl

/-- A line feed ends what is in front of it, whatever follows. -/
theorem rows_append_feed (as bs : List Char) :
    rows (as ++ '\n' :: bs) = as.splitOn '\n' ++ rows bs := by
  have hne : bs.splitOn '\n' ≠ [] := List.splitOn_ne_nil _ _
  have hlast : (as.splitOn '\n' ++ bs.splitOn '\n').getLast? = (bs.splitOn '\n').getLast? := by
    rw [List.getLast?_append, Option.or_of_isSome (List.getLast?_isSome.2 hne)]
  simp only [rows, List.splitOn_append_cons_self, hlast, List.dropLast_append_of_ne_nil hne]
  split <;> rfl

theorem rows_cons_feed (cs : List Char) : rows ('\n' :: cs) = [] :: rows cs := by
  rw [← List.nil_append ('\n' :: cs), rows_append_feed]
  rfl

/-- Another character in front belongs to the first row. -/
theorem rows_cons {c : Char} (hc : c ≠ '\n') (cs : List Char) :
    rows (c :: cs) =
      match rows cs with
      | []      => [[c]]
      | r :: rs => (c :: r) :: rs := by
  obtain ⟨part, parts, hparts⟩ := List.exists_cons_of_ne_nil (List.splitOn_ne_nil '\n' cs)
  have hcons : (c :: cs).splitOn '\n' = (c :: part) :: parts := by
    rw [List.splitOn_cons_eq_if_modifyHead, if_neg (by simpa using hc), hparts]
    rfl
  simp only [rows, hcons, hparts]
  cases parts with
  | nil => cases part <;> simp
  | cons p ps =>
    simp only [List.getLast?_cons_cons, List.dropLast_cons_cons]
    split <;> simp

/-- A text in front that is empty or ends with a line feed keeps its own rows. -/
theorem rows_append {as : List Char} (h : as = [] ∨ as.getLast? = some '\n') (bs : List Char) :
    rows (as ++ bs) = rows as ++ rows bs := by
  obtain rfl | hlast := h
  · rfl
  · obtain ⟨front, rfl⟩ := List.getLast?_eq_some_iff.1 hlast
    rw [List.append_assoc, List.singleton_append, rows_append_feed, rows_append_feed, rows_nil,
      List.append_nil]

/-- One line feed behind a row under way ends it and begins none. -/
theorem rows_feed {as : List Char} (hne : as ≠ []) (hlast : as.getLast? ≠ some '\n') :
    rows (as ++ ['\n']) = rows as := by
  induction as with
  | nil => exact absurd rfl hne
  | cons c as ih =>
    cases as with
    | nil =>
      have hc : c ≠ '\n' := fun h => hlast (by rw [h]; rfl)
      rw [List.cons_append, rows_cons hc, rows_cons hc]
      rfl
    | cons d as =>
      have hrest := ih (List.cons_ne_nil d as) (by rwa [List.getLast?_cons_cons] at hlast)
      rw [List.cons_append]
      by_cases hc : c = '\n'
      · rw [hc, rows_cons_feed, rows_cons_feed, hrest]
      · rw [rows_cons hc, rows_cons hc, hrest]

/-! ### The two readings of a text -/

/-- Whether a piece is a row with its line feed, or the row itself at the end of the text. -/
def IsRowOf (piece row : List Char) : Prop :=
  '\n' ∉ row ∧ (piece = row ∨ piece = row ++ ['\n'])

theorem pieces_cons (c : Char) (cs : List Char) :
    pieces (c :: cs) =
      if c = '\n' then [c] :: pieces cs
      else match pieces cs with
        | []      => [[c]]
        | p :: ps => (c :: p) :: ps :=
  rfl

/-- The pieces of a text are its rows, in order. -/
theorem pieces_rows (cs : List Char) : List.Forall₂ IsRowOf (pieces cs) (rows cs) := by
  induction cs with
  | nil => exact .nil
  | cons c cs ih =>
    rw [pieces_cons]
    split
    next hc =>
      rw [hc, rows_cons_feed]
      exact .cons ⟨List.not_mem_nil, .inr rfl⟩ ih
    next hc =>
      rw [rows_cons hc]
      have hfree : ∀ {r : List Char}, '\n' ∉ r → '\n' ∉ c :: r := fun hr h =>
        (List.mem_cons.1 h).elim (fun e => hc e.symm) hr
      revert ih
      generalize pieces cs = ps
      generalize rows cs = rs
      rintro (_ | ⟨⟨hr, hp⟩, htail⟩)
      · exact .cons ⟨hfree List.not_mem_nil, .inl rfl⟩ .nil
      · refine .cons ⟨hfree hr, ?_⟩ htail
        exact hp.imp (fun e => by rw [e]) (fun e => by rw [e, List.cons_append])

/-- What is left of a piece is its row, or all of it but a carriage return. -/
theorem chomp_row {piece row : List Char} (h : IsRowOf piece row) :
    row = chomp piece ∨ row = chomp piece ++ ['\r'] := by
  obtain ⟨hfree, rfl | rfl⟩ := h
  · refine .inl ?_
    unfold chomp
    split
    next e => exact absurd (List.mem_reverse.1 (e ▸ List.mem_cons_self)) hfree
    next e => exact absurd (List.mem_reverse.1 (e ▸ List.mem_cons_self)) hfree
    next => rfl
  · unfold chomp
    rw [List.reverse_append]
    split
    next r e =>
      have hrow : row.reverse = '\r' :: r := (List.cons.inj e).2
      exact .inr (by rw [← List.reverse_reverse row, hrow, List.reverse_cons])
    next r _ e =>
      have hrow : row.reverse = r := (List.cons.inj e).2
      exact .inl (by rw [← hrow, List.reverse_reverse])
    next hno => exact absurd rfl (hno _)

theorem feed_not_mem_chomp {piece row : List Char} (h : IsRowOf piece row) :
    '\n' ∉ chomp piece := by
  intro hmem
  obtain e | e := chomp_row h
  · exact h.1 (e ▸ hmem)
  · exact h.1 (e ▸ List.mem_append_left _ hmem)

/-- Each line of a text stands between line feeds of it; a carriage return behind the line may be
gone. -/
theorem lines_feedLines (s : String) :
    List.Forall₂ (fun line row => row = line ∨ row = line ++ "\r") (lines s) (feedLines s) := by
  refine List.forall₂_map_left_iff.2 (List.forall₂_map_right_iff.2 ?_)
  refine (pieces_rows s.toList).imp fun piece row h => ?_
  exact (chomp_row h).imp (congrArg String.ofList) fun e => by rw [e, String.ofList_append]

/-- No line has a line feed in it. -/
theorem isLine_lines (s : String) : ∀ line ∈ lines s, IsLine line := by
  intro line hline
  obtain ⟨piece, hpiece, rfl⟩ := List.mem_map.1 hline
  have hall : List.Forall₂ (fun p r => '\n' ∉ chomp p ∧ IsRowOf p r) _ _ :=
    (pieces_rows s.toList).imp fun p r h => ⟨feed_not_mem_chomp h, h⟩
  rw [IsLine, String.toList_ofList]
  exact ((List.forall₂_and_left _ _).1 hall).1 piece hpiece

/-! ### Texts one behind the other -/

/-- A text in front that is empty or ends with a line feed keeps its own lines. -/
theorem feedLines_append {s : String} (h : s.toList = [] ∨ s.toList.getLast? = some '\n')
    (t : String) : feedLines (s ++ t) = feedLines s ++ feedLines t := by
  rw [feedLines, String.toList_append, rows_append h, List.map_append]
  rfl

/-- One line feed behind a line under way ends it and begins none. -/
theorem feedLines_feed {s : String} (hne : s.toList ≠ [])
    (hlast : s.toList.getLast? ≠ some '\n') : feedLines (s ++ "\n") = feedLines s :=
  congrArg (List.map String.ofList) <| by
    rw [String.toList_append]
    exact rows_feed hne hlast

@[simp] theorem unlines_nil : unlines [] = "" := rfl

theorem unlines_cons (l : String) (ls : List String) :
    unlines (l :: ls) = l ++ "\n" ++ unlines ls := by
  refine String.toList_injective ?_
  simp only [unlines, String.toList_join, String.toList_append, List.map_cons, List.flatMap_cons]

theorem unlines_append (ls ls' : List String) :
    unlines (ls ++ ls') = unlines ls ++ unlines ls' := by
  induction ls with
  | nil => exact String.empty_append.symm
  | cons l ls ih => rw [List.cons_append, unlines_cons, unlines_cons, ih, ← String.append_assoc]

/-- The text of some lines is empty or ends with a line feed. -/
theorem unlines_ended (ls : List String) :
    (unlines ls).toList = [] ∨ (unlines ls).toList.getLast? = some '\n' := by
  induction ls with
  | nil => exact .inl rfl
  | cons l ls ih =>
    refine .inr ?_
    rw [unlines_cons, String.toList_append, List.getLast?_append]
    obtain ih | ih := ih
    · rw [ih, String.toList_append]
      exact List.getLast?_concat
    · rw [ih]
      rfl

/-- Lines without a line feed in them are read back. -/
theorem feedLines_unlines {ls : List String} (h : ∀ l ∈ ls, IsLine l) :
    feedLines (unlines ls) = ls := by
  induction ls with
  | nil => rfl
  | cons l ls ih =>
    obtain ⟨hl, hls⟩ := List.forall_mem_cons.1 h
    have htext : (unlines (l :: ls)).toList = l.toList ++ '\n' :: (unlines ls).toList := by
      rw [unlines_cons, String.toList_append, String.toList_append, List.append_assoc]
      rfl
    rw [feedLines, htext, rows_append_feed, List.splitOn_eq_singleton hl, List.singleton_append,
      List.map_cons, String.ofList_toList]
    exact congrArg (l :: ·) (ih hls)

/-- The text of lines without a line feed in them determines them. -/
theorem unlines_inj {ls ls' : List String} (h : ∀ l ∈ ls, IsLine l) (h' : ∀ l ∈ ls', IsLine l)
    (heq : unlines ls = unlines ls') : ls = ls' := by
  rw [← feedLines_unlines h, heq, feedLines_unlines h']

/-- The last line of a text is read back if it has no line feed in it and no carriage return at its
end, whatever the text in front of it is. -/
theorem getLast?_lines_unlines {l : String} (h : IsLine l) (hlast : l.toList.getLast? ≠ some '\r')
    (ls : List String) : (lines (unlines (ls ++ [l]))).getLast? = some l := by
  have hrows : feedLines (unlines (ls ++ [l])) = feedLines (unlines ls) ++ [l] := by
    rw [unlines_append, feedLines_append (unlines_ended ls),
      feedLines_unlines (List.forall_mem_singleton.2 h)]
  have hread := List.forall₂_reverse_iff.2 (lines_feedLines (unlines (ls ++ [l])))
  rw [hrows, List.reverse_append, List.reverse_singleton, List.singleton_append,
    List.forall₂_cons_right_iff] at hread
  obtain ⟨line, front, hline, -, hfront⟩ := hread
  rw [List.getLast?_eq_head?_reverse, hfront, List.head?_cons]
  obtain rfl | rfl := hline
  · rfl
  · rw [String.toList_append] at hlast
    exact absurd List.getLast?_concat hlast

end Assay.Text
