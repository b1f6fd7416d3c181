import Subword.FileStore
import Subword.Proofs.Except

/-!
Reading and writing by path. A path leads to a place if directories lead there; a file can be written at the
place unless a directory stands there. Main statement: a file that is written is read back, and every path
reads what it has read before unless it leads to the same place.
-/
namespace Subword.FileStore

def start (fs : FileStore) (path : Text) : List Text := if path.head? = some '/' then [] else fs.current

/-- The names of the path before its last one lead to a directory, and its last one names the place in it. -/
structure LeadsTo (fs : FileStore) (path : Text) (place : List Text) : Prop where
  accepted : refusal? path = none
  walk : ∃ directory last, (names path).getLast? = some last ∧
    (names path).dropLast.foldlM fs.step (fs.start path) = .ok directory ∧
    ¬(last = ".".toList ∨ last = "..".toList) ∧ exceeds last nameLimit = false ∧
    place = directory ++ [last]

/-- A file can be written under the path, and the place is where it comes to stand. -/
structure Opens (fs : FileStore) (path : Text) (place : List Text) : Prop where
  leads : fs.LeadsTo path place
  noSlash : path.getLast? ≠ some '/'
  free : fs.find? place ≠ some .directory

variable {fs fs' : FileStore} {path other : Text} {place : List Text} {content bytes : Bytes}

theorem LeadsTo.ne_nil (h : fs.LeadsTo path place) : place ≠ [] := by
  obtain ⟨directory, last, -, -, -, -, rfl⟩ := h.walk
  simp

theorem LeadsTo.target_eq (h : fs.LeadsTo path place) :
    fs.target path = match fs.find? place with
      | some .directory => .ok .directory
      | some (.file content) => .ok (.file place content (path.getLast? = some '/'))
      | none => .ok (.missing place (path.getLast? = some '/')) := by
  obtain ⟨directory, last, hlast, hwalk, hdots, hlength, rfl⟩ := h.walk
  unfold start at hwalk
  simp only [target, h.accepted, hlast, hwalk, if_neg hdots, hlength]
  rfl

/-- A path that leads to no place is not that of a file, nor can it become one. -/
theorem target_cases (fs : FileStore) (path : Text) :
    (∃ place, fs.LeadsTo path place) ∨ (∃ e, fs.target path = .error e) ∨
      fs.target path = .ok .directory ∨ ∃ slash, fs.target path = .ok (.overlong slash) := by
  cases hrefusal : refusal? path with
  | some e => exact Or.inr (Or.inl ⟨e, by simp only [target, hrefusal]⟩)
  | none =>
    cases hlast : (names path).getLast? with
    | none => exact Or.inr (Or.inr (Or.inl (by simp only [target, hrefusal, hlast])))
    | some last =>
      cases hwalk : (names path).dropLast.foldlM fs.step (fs.start path) with
      | error e =>
        unfold start at hwalk
        exact Or.inr (Or.inl ⟨e, by simp only [target, hrefusal, hlast, hwalk]⟩)
      | ok directory =>
        by_cases hdots : last = ".".toList ∨ last = "..".toList
        · unfold start at hwalk
          refine Or.inr (Or.inr (Or.inl ?_))
          simp only [target, hrefusal, hlast, hwalk, if_pos hdots]
        cases hlength : exceeds last nameLimit with
        | false => exact Or.inl ⟨_, hrefusal, directory, last, hlast, hwalk, hdots, hlength, rfl⟩
        | true =>
          unfold start at hwalk
          refine Or.inr (Or.inr (Or.inr ⟨path.getLast? = some '/', ?_⟩))
          simp only [target, hrefusal, hlast, hwalk, if_neg hdots, hlength]
          rfl

theorem LeadsTo.read_eq (h : fs.LeadsTo path place) : fs.read path =
    match fs.find? place with
    | some .directory => .error .isADirectory
    | some (.file content) =>
      if path.getLast? = some '/' then .error .notADirectory else .ok content
    | none => .error .notFound := by
  unfold read
  rw [h.target_eq]
  rcases fs.find? place with _ | _ | stored
  · rfl
  · rfl
  · by_cases hslash : path.getLast? = some '/' <;> simp [hslash]

theorem LeadsTo.write_eq (h : fs.LeadsTo path place) (content : Bytes) : fs.write path content =
    if path.getLast? = some '/' ∨ fs.find? place = some .directory then .error .isADirectory
    else .ok (fs.put place (.file content)) := by
  unfold write
  rw [h.target_eq]
  rcases fs.find? place with _ | _ | stored
  all_goals by_cases hslash : path.getLast? = some '/' <;> simp [hslash]

theorem read_eq_ok_iff : fs.read path = .ok content ↔ ∃ place, fs.LeadsTo path place ∧
    path.getLast? ≠ some '/' ∧ fs.find? place = some (.file content) := by
  constructor
  · intro h
    rcases fs.target_cases path with ⟨place, hleads⟩ | hother
    · rw [hleads.read_eq] at h
      refine ⟨place, hleads, ?_⟩
      split at h
      · cases h
      · split at h
        · cases h
        · cases h
          exact ⟨‹_›, ‹_›⟩
      · cases h
    · unfold read at h
      rcases hother with ⟨e, htarget⟩ | htarget | ⟨slash, htarget⟩ <;> simp [htarget] at h
  · intro ⟨place, hleads, hslash, hnode⟩
    rw [hleads.read_eq, hnode]
    exact if_neg hslash

/-- A file can be written exactly if the path opens a place, and then it stands there. -/
theorem write_eq_ok_iff : fs.write path content = .ok fs' ↔
    ∃ place, fs.Opens path place ∧ fs' = fs.put place (.file content) := by
  constructor
  · intro h
    rcases fs.target_cases path with ⟨place, hleads⟩ | hother
    · rw [hleads.write_eq] at h
      split at h
      · cases h
      · rename_i hopen
        rw [not_or] at hopen
        cases h
        exact ⟨place, ⟨hleads, hopen.1, hopen.2⟩, rfl⟩
    · unfold write at h
      rcases hother with ⟨e, htarget⟩ | htarget | ⟨slash, htarget⟩
      · simp [htarget] at h
      · simp [htarget] at h
      · cases slash <;> simp [htarget] at h
  · intro ⟨place, hopens, hput⟩
    rw [hopens.leads.write_eq, if_neg (not_or.mpr ⟨hopens.noSlash, hopens.free⟩), hput]

theorem exists_write_error (h : ∀ place, ¬fs.Opens path place) (content : Bytes) :
    ∃ e, fs.write path content = .error e := by
  cases hwrite : fs.write path content with
  | error e => exact ⟨e, rfl⟩
  | ok fs' =>
    obtain ⟨place, hopens, -⟩ := write_eq_ok_iff.mp hwrite
    exact absurd hopens (h place)

section
variable (hplace : place ≠ []) (hfree : fs.find? place ≠ some .directory)
include hplace hfree

/-- A file takes the place of no directory, so the same names lead the same way. -/
theorem step_put_eq_ok_iff (content : Bytes) (directory directory' : List Text) (name : Text) :
    (fs.put place (.file content)).step directory name = .ok directory' ↔
      fs.step directory name = .ok directory' := by
  unfold step
  rw [find?_put hplace]
  by_cases hthere : directory ++ [name] = place
  · -- neither the file that stands there now nor what stood there before is a directory
    rw [if_pos hthere, hthere]
    split
    · rfl
    split
    · rfl
    split
    · rfl
    rcases hnode : fs.find? place with _ | _ | stored
    · simp
    · exact absurd hnode hfree
    · simp
  · rw [if_neg hthere]

theorem walk_put_eq_ok_iff (content : Bytes) (ns : List Text) (directory directory' : List Text) :
    ns.foldlM (fs.put place (.file content)).step directory = .ok directory' ↔
      ns.foldlM fs.step directory = .ok directory' := by
  induction ns generalizing directory with
  | nil => rfl
  | cons name ns ih =>
    rw [List.foldlM_cons, List.foldlM_cons, Except.bind_eq_ok_iff, Except.bind_eq_ok_iff]
    simp only [ih, step_put_eq_ok_iff hplace hfree content]

theorem leadsTo_put_iff (content : Bytes) {place' : List Text} :
    (fs.put place (.file content)).LeadsTo path place' ↔ fs.LeadsTo path place' := by
  have hstart : (fs.put place (.file content)).start path = fs.start path := rfl
  constructor
  · intro ⟨haccepted, directory, last, hlast, hwalk, hrest⟩
    rw [hstart, walk_put_eq_ok_iff hplace hfree] at hwalk
    exact ⟨haccepted, directory, last, hlast, hwalk, hrest⟩
  · intro ⟨haccepted, directory, last, hlast, hwalk, hrest⟩
    rw [← walk_put_eq_ok_iff hplace hfree content, ← hstart] at hwalk
    exact ⟨haccepted, directory, last, hlast, hwalk, hrest⟩

end

theorem Opens.read_put (h : fs.Opens path place) (content : Bytes) :
    (fs.put place (.file content)).read path = .ok content := by
  have hplace := h.leads.ne_nil
  have hleads := (leadsTo_put_iff hplace h.free content).mpr h.leads
  refine read_eq_ok_iff.mpr ⟨place, hleads, h.noSlash, ?_⟩
  rw [find?_put hplace, if_pos rfl]

/-- A path that opens another place, or none, reads what it has read before the file was written. -/
theorem Opens.read_put_of_not_opens (h : fs.Opens path place) (hother : ¬fs.Opens other place) :
    (fs.put place (.file content)).read other = .ok bytes ↔ fs.read other = .ok bytes := by
  have hplace := h.leads.ne_nil
  rw [read_eq_ok_iff, read_eq_ok_iff]
  refine exists_congr fun place' => ?_
  rw [leadsTo_put_iff hplace h.free, find?_put hplace]
  refine and_congr_right fun hleads => and_congr_right fun hslash => ?_
  have hne : place' ≠ place := by
    intro heq
    rw [heq] at hleads
    exact hother ⟨hleads, hslash, h.free⟩
  rw [if_neg hne]

end Subword.FileStore
