import FilterSql.Text.Basic
import Mathlib.Data.List.Basic

/-!
# Lines of a text

`HasLines` says which lines a text has by how the text is put together, without a scan; `lines` gives just
these (`lines_eq_iff`).  Whole lines are read before what follows them (`linesFrom_append`), and a line that
does not end with a carriage return is read as it is, however it ends (`exists_lines`).
-/

namespace FilterSql.Text

/-! ## scanning -/

def EndsWhole (cs : List Char) : Prop := cs = [] ∨ ∃ lines, cs = lines ++ ['\n']

/-- what can stand behind a line: nothing, or the end of the line and more -/
def ContinuesLine (cs : List Char) : Prop :=
  cs = [] ∨ (∃ more, cs = '\n' :: more) ∨ ∃ more, cs = '\r' :: '\n' :: more

theorem linesFrom_append_feed (done cs more : List Char) :
    linesFrom done (cs ++ '\n' :: more) = linesFrom done (cs ++ ['\n']) ++ linesFrom [] more := by
  induction cs generalizing done with
  | nil => rfl
  | cons c cs ih =>
    rw [List.cons_append, List.cons_append, linesFrom, linesFrom]
    by_cases hc : c = '\n'
    · rw [if_pos hc, if_pos hc, ih, List.cons_append]
    · rw [if_neg hc, if_neg hc, ih]

/-- whole lines are read before what follows them -/
theorem linesFrom_append {before : List Char} (h : EndsWhole before) (more : List Char) :
    linesFrom [] (before ++ more) = linesFrom [] before ++ linesFrom [] more := by
  rcases h with rfl | ⟨lines, rfl⟩
  · rfl
  · rw [List.append_assoc]
    exact linesFrom_append_feed [] lines more

theorem linesFrom_of_not_mem {line : List Char} (h : '\n' ∉ line) (done more : List Char) :
    linesFrom done (line ++ more) = linesFrom (line.reverse ++ done) more := by
  induction line generalizing done with
  | nil => rfl
  | cons c line ih =>
    obtain ⟨hc, hline⟩ := not_or.mp (List.mem_cons.not.mp h)
    rw [List.cons_append, linesFrom, if_neg (Ne.symm hc), ih hline, List.reverse_cons,
      List.append_assoc]
    rfl

theorem dropReturn_of_ne {line : List Char} (h : line.getLast? ≠ some '\r') :
    dropReturn line = line := if_neg h

theorem dropReturn_concat (line : List Char) : dropReturn (line ++ ['\r']) = line := by
  unfold dropReturn
  simp

/-- what is left at the end of the text is a line, if there is something -/
theorem linesFrom_last {line : List Char} (h : '\n' ∉ line) (hne : line ≠ []) :
    linesFrom [] line = [line] := by
  have hrun := linesFrom_of_not_mem h [] []
  rw [List.append_nil, List.append_nil] at hrun
  rw [hrun]
  show (if line.reverse = [] then [] else [line.reverse.reverse]) = [line]
  rw [if_neg (List.reverse_eq_nil_iff.not.mpr hne), List.reverse_reverse]

theorem linesFrom_feed {line : List Char} (h : '\n' ∉ line) (more : List Char) :
    linesFrom [] (line ++ '\n' :: more) = dropReturn line :: linesFrom [] more := by
  rw [linesFrom_of_not_mem h, List.append_nil]
  show dropReturn line.reverse.reverse :: _ = _
  rw [List.reverse_reverse]

/-- a carriage return in front of the line feed belongs to the end of the line -/
theorem linesFrom_returnFeed {line : List Char} (h : '\n' ∉ line) (more : List Char) :
    linesFrom [] (line ++ '\r' :: '\n' :: more) = line :: linesFrom [] more := by
  have hreturn : '\n' ∉ line ++ ['\r'] := by simp [h]
  rw [List.append_cons, linesFrom_feed hreturn, dropReturn_concat]

/-- a line that does not end with a carriage return is read as it is -/
theorem exists_linesFrom {line after : List Char} (hfeed : '\n' ∉ line) {c : Char}
    (hlast : line.getLast? = some c) (hc : c ≠ '\r') (hafter : ContinuesLine after) :
    ∃ more, linesFrom [] (line ++ after) = line :: more := by
  have hne : line ≠ [] := by
    rintro rfl
    cases hlast
  have hkeep : dropReturn line = line := dropReturn_of_ne (by simpa [hlast] using hc)
  rcases hafter with rfl | ⟨more, rfl⟩ | ⟨more, rfl⟩
  · exact ⟨[], by rw [List.append_nil, linesFrom_last hfeed hne]⟩
  · exact ⟨linesFrom [] more, by rw [linesFrom_feed hfeed, hkeep]⟩
  · exact ⟨linesFrom [] more, linesFrom_returnFeed hfeed more⟩

theorem exists_lines {before line after : String} (hbefore : EndsWhole before.toList)
    (hfeed : '\n' ∉ line.toList) {c : Char} (hlast : line.toList.getLast? = some c) (hc : c ≠ '\r')
    (hafter : ContinuesLine after.toList) :
    ∃ more, lines (before ++ line ++ after) = lines before ++ line :: more := by
  obtain ⟨more, hmore⟩ := exists_linesFrom hfeed hlast hc hafter
  refine ⟨more.map String.ofList, ?_⟩
  unfold lines
  rw [String.toList_append, String.toList_append, List.append_assoc, linesFrom_append hbefore, hmore,
    List.map_append, List.map_cons, String.ofList_toList]

/-! ## lines as parts of the text -/

/-- A text has these lines: each ends with a line feed, perhaps behind a carriage return, and the last one
may end with the text.  Nothing scans here. -/
inductive HasLines : List Char → List String → Prop
  | nil : HasLines [] []
  | last {line : String} : line ≠ "" → '\n' ∉ line.toList → HasLines line.toList [line]
  | feed {line : String} {more : List Char} {lines : List String} : '\n' ∉ line.toList →
      line.toList.getLast? ≠ some '\r' → HasLines more lines →
      HasLines (line.toList ++ '\n' :: more) (line :: lines)
  | returnFeed {line : String} {more : List Char} {lines : List String} : '\n' ∉ line.toList →
      HasLines more lines → HasLines (line.toList ++ '\r' :: '\n' :: more) (line :: lines)

theorem HasLines.linesFrom_eq {cs : List Char} {ls : List String} (h : HasLines cs ls) :
    (linesFrom [] cs).map String.ofList = ls := by
  induction h with
  | nil => rfl
  | @last line hne hfeed =>
    rw [linesFrom_last hfeed (String.toList_eq_nil_iff.not.mpr hne)]
    simp
  | feed hfeed hreturn _ ih =>
    rw [linesFrom_feed hfeed, dropReturn_of_ne hreturn, List.map_cons, ih, String.ofList_toList]
  | returnFeed hfeed _ ih =>
    rw [linesFrom_returnFeed hfeed, List.map_cons, ih, String.ofList_toList]

/-- every text has lines; the induction is on what follows the first line feed -/
theorem exists_hasLines (cs : List Char) : ∃ ls, HasLines cs ls := by
  by_cases hfeed : '\n' ∈ cs
  · obtain ⟨line, more, hcs, hline⟩ := List.eq_append_cons_of_mem hfeed
    obtain ⟨ls, hmore⟩ := exists_hasLines more
    subst hcs
    by_cases hreturn : line.getLast? = some '\r'
    · have hdrop := List.dropLast_append_getLast? '\r' hreturn
      have hfront : '\n' ∉ line.dropLast := fun h => hline (List.dropLast_subset _ h)
      have hlines := @HasLines.returnFeed (String.ofList line.dropLast) more ls
        (by rwa [String.toList_ofList]) hmore
      rw [String.toList_ofList, List.append_cons, hdrop] at hlines
      exact ⟨_, hlines⟩
    · have hlines := @HasLines.feed (String.ofList line) more ls (by rwa [String.toList_ofList])
        (by rwa [String.toList_ofList]) hmore
      rw [String.toList_ofList] at hlines
      exact ⟨_, hlines⟩
  · by_cases hnil : cs = []
    · exact ⟨[], hnil ▸ .nil⟩
    · have hlines := @HasLines.last (String.ofList cs) (mt String.ofList_eq_empty_iff.mp hnil)
        (by rwa [String.toList_ofList])
      rw [String.toList_ofList] at hlines
      exact ⟨_, hlines⟩
termination_by cs.length
decreasing_by
  rw [hcs, List.length_append, List.length_cons]
  omega

theorem lines_eq_iff {content : String} {ls : List String} :
    lines content = ls ↔ HasLines content.toList ls := by
  constructor
  · rintro rfl
    obtain ⟨ls, hls⟩ := exists_hasLines content.toList
    rwa [lines, hls.linesFrom_eq]
  · exact HasLines.linesFrom_eq

theorem HasLines.unique {cs : List Char} {ls ls' : List String} (h : HasLines cs ls)
    (h' : HasLines cs ls') : ls = ls' :=
  h.linesFrom_eq.symm.trans h'.linesFrom_eq

end FilterSql.Text
