import Mathlib.Data.List.Basic
import Mathlib.Tactic.Common
import CommandVetting.Cli.Run

/-!
# Files that stay

Opening a log creates folders and a file. The folders stay when the file cannot be created, or when a
folder in them cannot be; all else stays as it was in any case.

* `FileTree.KeepsAt`, `FileTree.GrowsTo`: a tree of files changes by **new folders only**, at one place
  and as a whole;
* `FileTree.makeFolder_eq_ok`, `FileTree.createFile_eq_ok`: what one step does to a tree;
* `FileTree.growsTo_makeFolders`: a folder and those above it, whether all of them can be created or not;
* `FileTree.openLog_eq_ok_iff`, `FileTree.openLog_eq_error`: the two steps in which a log is opened;
* **`FileTree.growsTo_of_openLog`**: a log that cannot be opened leaves folders at most;
* **`LogFile.keepsAt_write`**: a log that has been written has changed its own place, and no other file.
-/

namespace CommandVetting

theorem lookup_filter_of_ne {α β : Type} [BEq α] [LawfulBEq α] {a b : α} (h : a ≠ b)
    (l : List (α × β)) : (l.filter fun e => e.1 != b).lookup a = l.lookup a := by
  induction l with
  | nil => rfl
  | cons e l ih =>
    obtain ⟨k, x⟩ := e
    by_cases hk : k = b
    · have hne : (a == k) = false := beq_false_of_ne (hk ▸ h)
      simp [hk, ih, List.lookup_cons, beq_false_of_ne h]
    · simp [hk, ih, List.lookup_cons]

namespace FileTree

variable {f g k : FileTree} {p q : Place} {node : FileNode}

/-! ## One place and all places -/

/-- What is found at a place stays; or a folder is found where nothing was. -/
def KeepsAt (f g : FileTree) (p : Place) : Prop :=
  g.find? p = f.find? p ∨ f.find? p = none ∧ g.find? p = some .folder

/-- The second tree is the first one, with new folders at most. -/
structure GrowsTo (f g : FileTree) : Prop where
  here : g.here = f.here
  keepsAt : ∀ p, f.KeepsAt g p

theorem KeepsAt.trans (h : f.KeepsAt g p) (h' : g.KeepsAt k p) : f.KeepsAt k p := by
  obtain hg | ⟨hf, hg⟩ := h
  · rwa [KeepsAt, ← hg]
  · obtain hk | ⟨hnone, -⟩ := h'
    · exact .inr ⟨hf, hk.trans hg⟩
    · cases hg.symm.trans hnone

theorem GrowsTo.refl (f : FileTree) : f.GrowsTo f := ⟨rfl, fun _ => .inl rfl⟩

theorem GrowsTo.trans (h : f.GrowsTo g) (h' : g.GrowsTo k) : f.GrowsTo k :=
  ⟨h'.here.trans h.here, fun p => (h.keepsAt p).trans (h'.keepsAt p)⟩

/-- Files stay, with their lines, and none is new. -/
theorem GrowsTo.find?_eq_file_iff (h : f.GrowsTo g) (p : Place) (lines : List Text) :
    g.find? p = some (.file lines) ↔ f.find? p = some (.file lines) := by
  obtain hg | ⟨hf, hg⟩ := h.keepsAt p
  · rw [hg]
  · simp [hf, hg]

/-! ## One change -/

theorem find?_put (h : p ≠ []) : (f.put p node).find? p = some node := by
  rw [find?, if_neg (by simpa using h), put, List.lookup_cons_self]

theorem find?_put_of_ne (h : q ≠ p) : (f.put p node).find? q = f.find? q := by
  have hlookup : ((p, node) :: f.entries.filter fun e => e.1 != p).lookup q = f.entries.lookup q := by
    rw [List.lookup_cons, beq_false_of_ne h]
    exact lookup_filter_of_ne h f.entries
  rw [find?, find?, put, hlookup]

theorem ne_nil_of_find?_eq_none (h : f.find? p = none) : p ≠ [] := by
  rintro rfl
  cases h

theorem growsTo_put (h : f.find? p = none) : f.GrowsTo (f.put p .folder) := by
  refine ⟨rfl, fun q => ?_⟩
  obtain rfl | hq := eq_or_ne q p
  · exact .inr ⟨h, find?_put (ne_nil_of_find?_eq_none h)⟩
  · exact .inl (find?_put_of_ne hq)

theorem putNew_eq_ok {name : Text} (h : f.putNew p name node = .ok g) : g = f.put (p ++ [name]) node := by
  rw [putNew] at h
  split_ifs at h
  exact (Except.ok.inj h).symm

/-- **A folder is created** where nothing was. -/
theorem makeFolder_eq_ok {path : FilePath} (h : f.makeFolder path = .ok g) :
    ∃ q, f.find? q = none ∧ g = f.put q .folder := by
  rw [makeFolder] at h
  split at h
  · cases h
  · next name _ =>
    cases hw : f.walk (f.origin path) path.names.dropLast with
    | error e =>
      rw [hw] at h
      cases h
    | ok folder =>
      simp only [hw, bind, Except.bind] at h
      split_ifs at h with hself hlong hfound
      exact ⟨folder ++ [name], by simpa using hfound, putNew_eq_ok h⟩

/-- **A file is created** where nothing or a file was. -/
theorem createFile_eq_ok {path : Text} (h : f.createFile path = .ok (p, g)) :
    p ≠ [] ∧ g = f.put p (.file []) ∧
      (f.find? p = none ∨ ∃ lines, f.find? p = some (.file lines)) := by
  simp only [createFile] at h
  split_ifs at h
  split at h
  · cases h
  · next name _ =>
    cases hw : f.walk (f.origin (FilePath.ofText path)) (FilePath.ofText path).names.dropLast with
    | error e =>
      rw [hw] at h
      cases h
    | ok folder =>
      simp only [hw, bind, Except.bind] at h
      split_ifs at h
      split at h
      · cases h
      · cases h
      · next lines hfile =>
        cases h
        exact ⟨by simp, rfl, .inr ⟨lines, hfile⟩⟩
      · next hnone =>
        cases hput : f.putNew folder name (.file []) with
        | error e =>
          rw [hput] at h
          cases h
        | ok k =>
          rw [hput] at h
          cases h
          exact ⟨by simp, putNew_eq_ok hput, .inl hnone⟩

/-! ## Folders -/

/-- The files that a change leaves, whether it could be completed or not. -/
def leftBy {ε : Type} : Except (ε × FileTree) FileTree → FileTree
  | .ok g => g
  | .error (_, g) => g

theorem growsTo_ensureFolder (f : FileTree) (path : FilePath) :
    f.GrowsTo (leftBy ((f.ensureFolder path).mapError fun e => (e, f))) := by
  rw [ensureFolder]
  split
  · next g hg =>
    obtain ⟨q, hq, rfl⟩ := makeFolder_eq_ok hg
    exact growsTo_put hq
  · split_ifs
    · exact .refl f
    · exact .refl f

/-- By induction on the number of folders above: what is created above a folder stays. -/
theorem growsTo_makeAbove (f : FileTree) (path : FilePath) (n : Nat) :
    f.GrowsTo (leftBy (f.makeAbove path n)) := by
  induction n generalizing path with
  | zero => exact .refl f
  | succ n ih =>
    have hfirst := growsTo_ensureFolder f path
    have habove := ih path.parent
    rw [makeAbove]
    split_ifs
    · exact .refl f
    · cases hpath : f.ensureFolder path with
      | ok g =>
        rw [hpath] at hfirst
        exact hfirst
      | error e =>
        dsimp only
        split_ifs
        · cases hparent : f.makeAbove path.parent n with
          | error u =>
            rw [hparent] at habove
            exact habove
          | ok g =>
            rw [hparent] at habove
            exact habove.trans (growsTo_ensureFolder g path)
        · exact .refl f

theorem growsTo_makeFolders (f : FileTree) (path : Text) : f.GrowsTo (leftBy (f.makeFolders path)) := by
  rw [makeFolders]
  split_ifs
  · exact .refl f
  · exact growsTo_makeAbove f _ _

/-- The name of the inner folder is too long, and the outer folder has been created. -/
example : let made := (fresh ["home"]).makeFolders ("outer/" ++ List.replicate 256 'a')
    made.isOk = false ∧ (leftBy made).find? ["home", "outer"] = some .folder := by
  decide +kernel

/-! ## Logs -/

variable {dir stamp : Text} {log : LogFile}

/-- A log is opened in two steps: first its folders are created, and then its file. -/
theorem openLog_eq_ok_iff : f.openLog dir stamp = .ok log ↔
    log.path = FilePath.join dir (logName stamp) ∧
      ∃ g, f.makeFolders dir = .ok g ∧ g.createFile log.path = .ok (log.place, log.files) := by
  constructor
  · intro h
    simp only [openLog] at h
    split at h
    · cases h
    · next g hg =>
      split at h
      · cases h
      · next hfile =>
        cases h
        exact ⟨rfl, g, hg, hfile⟩
  · rintro ⟨hpath, g, hg, hfile⟩
    obtain ⟨path, place, files⟩ := log
    subst hpath
    simp only [openLog, hg, hfile]

/-- A log is not opened: some folder cannot be created; or all of them can, and not the file. -/
theorem openLog_eq_error {e : LogFailure} (h : f.openLog dir stamp = .error (e, g)) :
    (∃ cause, e = .folder dir cause ∧ f.makeFolders dir = .error (cause, g)) ∨
      ∃ cause, e = .file (FilePath.join dir (logName stamp)) cause ∧ f.makeFolders dir = .ok g ∧
        g.createFile (FilePath.join dir (logName stamp)) = .error cause := by
  simp only [openLog] at h
  split at h
  · next cause k hmake =>
    cases h
    exact .inl ⟨cause, rfl, hmake⟩
  · next k hmake =>
    split at h
    · next cause hfile =>
      cases h
      exact .inr ⟨cause, rfl, hmake, hfile⟩
    · cases h

/-- **A log that cannot be opened** leaves folders at most, and no file that was not there. -/
theorem growsTo_of_openLog {e : LogFailure} (h : f.openLog dir stamp = .error (e, g)) : f.GrowsTo g := by
  have hfolders := growsTo_makeFolders f dir
  obtain ⟨cause, -, hmake⟩ | ⟨cause, -, hmake, -⟩ := openLog_eq_error h
  · rwa [hmake] at hfolders
  · rwa [hmake] at hfolders

end FileTree

/-- What is said about a log that cannot be opened is no line of an event. -/
theorem LogFailure.opening_message (e : LogFailure) : ("Error: Failed to create log " : Text) <+: e.message := by
  cases e with
  | folder path cause => exact ⟨"directory " ++ path ++ "\n\nCaused by:\n    " ++ cause.message, rfl⟩
  | file path cause => exact ⟨"file " ++ path ++ "\n\nCaused by:\n    " ++ cause.message, rfl⟩

namespace LogFile

variable {f : FileTree} {dir stamp : Text} {log : LogFile}

/-- What has been written to a log is found at its place. -/
theorem find?_write (h : f.openLog dir stamp = .ok log) (lines : List Text) :
    (log.write lines).find? log.place = some (.file lines) := by
  obtain ⟨-, g, -, hfile⟩ := FileTree.openLog_eq_ok_iff.mp h
  exact FileTree.find?_put (FileTree.createFile_eq_ok hfile).1

/-- **A log that has been written** has changed its own place; elsewhere there are new folders at most. -/
theorem keepsAt_write (h : f.openLog dir stamp = .ok log) (lines : List Text) {p : Place}
    (hp : p ≠ log.place) : f.KeepsAt (log.write lines) p := by
  obtain ⟨-, g, hmake, hfile⟩ := FileTree.openLog_eq_ok_iff.mp h
  have hfolders := FileTree.growsTo_makeFolders f dir
  rw [hmake] at hfolders
  obtain ⟨-, hcreated, -⟩ := FileTree.createFile_eq_ok hfile
  have hfound : (log.write lines).find? p = g.find? p := by
    rw [write, FileTree.find?_put_of_ne hp, hcreated, FileTree.find?_put_of_ne hp]
  exact (hfolders.keepsAt p).trans (.inl hfound)

end LogFile

end CommandVetting
