import LayoutMarkup.Files.Tree
import LayoutMarkup.Proofs.Text.Words

/-!
# The last piece of a path

A path that ends in a name, with no slash and no `.` behind it, has that name as the name of its
file. So does its target in any directory, since a target is put together from the directory and the
name alone.

## Main definitions

* `Path.EndsIn` — a path that ends in a name

## Main results

* `Path.EndsIn.fileName?_eq` — the name that a path ends in is that of its file
* `Path.endsIn_target` — a target ends in the name of the input's file
-/

namespace LayoutMarkup

open FileTree (Step)

namespace Path

variable {path directory input : Path} {name : String}

/-- A path whose last piece is a name. -/
def EndsIn (path : Path) (name : String) : Prop :=
  path.pieces.getLast? = some name ∧ Step.ofPiece name = .into name

theorem laterPart?_eq_some_iff {piece : String} :
    laterPart? piece = some (.name name) ↔ piece = name ∧ Step.ofPiece name = .into name := by
  constructor
  · intro h
    unfold laterPart? at h
    split at h
    · cases h
    · rename_i hbare
      split at h
      · cases h
      · rename_i hup
        cases h
        exact ⟨rfl, by rw [Step.ofPiece, if_neg hbare, if_neg hup]⟩
  · rintro ⟨rfl, h⟩
    unfold Step.ofPiece at h
    split at h
    · cases h
    · rename_i hbare
      split at h
      · cases h
      · rename_i hup
        rw [laterPart?, if_neg hbare, if_neg hup]

/-! ### Pieces -/

theorem pieces_of_notMem_slash (h : '/' ∉ path.text.toList) : path.pieces = [path.text] := by
  have hsplit : path.text.toList.splitOn '/' = [path.text.toList] := by
    apply List.splitOnP_eq_singleton
    intro c hc
    simpa using ne_of_mem_of_not_mem hc h
  rw [pieces, hsplit, List.map_singleton, String.ofList_toList]

theorem pieces_of_append_slash {front back : List Char}
    (h : path.text.toList = front ++ '/' :: back) :
    path.pieces = (⟨String.ofList front⟩ : Path).pieces ++ (⟨String.ofList back⟩ : Path).pieces := by
  have hsplit : (front ++ '/' :: back).splitOn '/' = front.splitOn '/' ++ back.splitOn '/' :=
    List.splitOnP_append_cons _ _ (beq_self_eq_true '/')
  rw [pieces, h, hsplit, List.map_append, pieces, pieces, String.toList_ofList,
    String.toList_ofList]

theorem pieces_ne_nil (path : Path) : path.pieces ≠ [] := by
  rw [pieces, ne_eq, List.map_eq_nil_iff]
  exact List.splitOnP_ne_nil _ _

theorem slash_notMem_of_mem_pieces (h : name ∈ path.pieces) : '/' ∉ name.toList := by
  obtain ⟨piece, hpiece, rfl⟩ := List.mem_map.mp h
  rw [String.toList_ofList]
  intro hmem
  have hslash := (Text.mem_splitOnP hpiece '/' hmem).2
  contradiction

/-- A path that begins with a slash has a piece behind it. -/
theorem exists_pieces_of_isAbsolute (h : path.isAbsolute = true) :
    ∃ piece rest, path.pieces = "" :: piece :: rest := by
  obtain ⟨back, hback⟩ := List.head?_eq_some_iff.mp (of_decide_eq_true h)
  obtain ⟨piece, rest, hrest⟩ :=
    List.exists_cons_of_ne_nil (pieces_ne_nil ⟨String.ofList back⟩)
  refine ⟨piece, rest, ?_⟩
  have hfront : path.text.toList = [] ++ '/' :: back := hback
  rw [pieces_of_append_slash hfront, hrest]
  rfl

/-! ### The name of the file -/

/-- The name that a path ends in is the name of its file. -/
theorem EndsIn.fileName?_eq (h : path.EndsIn name) : path.fileName? = some name := by
  obtain ⟨hlast, hname⟩ := h
  have hpart : laterPart? name = some (.name name) := laterPart?_eq_some_iff.mpr ⟨rfl, hname⟩
  obtain ⟨front, hpieces⟩ := List.getLast?_eq_some_iff.mp hlast
  have hparts : ∃ before, path.parts = before ++ [.name name] := by
    cases front with
    | nil =>
      -- The one piece is not that in front of a leading slash.
      have habsolute : path.isAbsolute = false := by
        rw [← Bool.not_eq_true]
        intro h
        obtain ⟨piece, rest, hrest⟩ := exists_pieces_of_isAbsolute h
        rw [hpieces] at hrest
        cases hrest
      have hhere : name ≠ "." := by
        rintro rfl
        cases hname
      exact ⟨[], by simp [parts, hpieces, habsolute, hhere, hpart]⟩
    | cons first front => exact ⟨_, by
        simp only [parts, hpieces, List.cons_append, List.filterMap_append, ← List.append_assoc]
        rw [List.filterMap_cons_some hpart, List.filterMap_nil]⟩
  obtain ⟨before, hbefore⟩ := hparts
  rw [fileName?, hbefore, List.getLast?_concat]

/-- The name of a file is a piece of the path, and a name. -/
theorem of_fileName?_eq_some (h : path.fileName? = some name) :
    Step.ofPiece name = .into name ∧ '/' ∉ name.toList := by
  have hmem : .name name ∈ path.parts := by
    unfold fileName? at h
    split at h
    · rename_i hlast
      cases h
      exact List.mem_of_getLast? hlast
    · cases h
  have hpiece : ∃ piece ∈ path.pieces, laterPart? piece = some (.name name) := by
    unfold parts at hmem
    split at hmem
    · cases hmem
    · rename_i first rest hpieces
      rw [hpieces]
      rcases List.mem_append.mp hmem with hmem | hmem
      · refine ⟨first, List.mem_cons_self, ?_⟩
        split at hmem
        · simp at hmem
        · split at hmem
          · simp at hmem
          · exact Option.mem_toList.mp hmem
      · obtain ⟨piece, hpiece, hpart⟩ := List.mem_filterMap.mp hmem
        exact ⟨piece, List.mem_cons_of_mem _ hpiece, hpart⟩
  obtain ⟨piece, hpiece, hpart⟩ := hpiece
  obtain ⟨rfl, hname⟩ := laterPart?_eq_some_iff.mp hpart
  exact ⟨hname, slash_notMem_of_mem_pieces hpiece⟩

/-- A name below a directory ends the path. -/
theorem endsIn_join (hname : Step.ofPiece name = .into name) (hslash : '/' ∉ name.toList) :
    (directory.join ⟨name⟩).EndsIn name := by
  refine ⟨?_, hname⟩
  have hlast : (⟨name⟩ : Path).pieces = [name] := pieces_of_notMem_slash hslash
  have habsolute : (⟨name⟩ : Path).isAbsolute = false := by
    rw [isAbsolute, decide_eq_false_iff_not]
    exact fun h => hslash (List.mem_of_head? h)
  have hback (path : Path) (front : List Char) (h : path.text.toList = front ++ '/' :: name.toList) :
      path.pieces.getLast? = some name := by
    rw [pieces_of_append_slash h, String.ofList_toList, hlast, List.getLast?_concat]
  rw [join, habsolute]
  simp only [Bool.false_eq_true, if_false]
  split
  · rename_i hend
    rw [Bool.or_eq_true, decide_eq_true_iff, decide_eq_true_iff] at hend
    rcases hend with hempty | hend
    · rw [hempty, String.empty_append, hlast]
      rfl
    · obtain ⟨front, hfront⟩ := List.getLast?_eq_some_iff.mp hend
      apply hback _ front
      rw [String.toList_append, hfront, List.append_assoc]
      rfl
  · apply hback _ directory.text.toList
    rw [String.toList_append, String.toList_append, List.append_assoc]
    rfl

/-- The target of an input ends in the name of the input's file. -/
theorem endsIn_target (directory : Path) (h : input.fileName? = some name) :
    (directory.target input).EndsIn name := by
  obtain ⟨hname, hslash⟩ := of_fileName?_eq_some h
  rw [target, h]
  exact endsIn_join hname hslash

end Path

end LayoutMarkup
