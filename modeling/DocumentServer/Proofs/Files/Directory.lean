import DocumentServer.Files.Directory
import DocumentServer.Proofs.KeyMap

/-! Files of a directory: what is written to a file is read from it, and what each action on files
gives and leaves when it runs on a directory. -/
namespace DocumentServer.Directory

/-- What was written to a file is read from it. -/
theorem read_write {directory after : Directory} {path : String} {bytes : Bytes}
    (h : directory.write path bytes = .ok after) : after.read path = .ok bytes := by
  unfold write nameToWrite at h
  unfold read
  cases hplace : place path with
  | file name =>
    rw [hplace] at h
    cases h
    simp [KeyMap.get?_insert]
  | _ => simp [hplace, Except.map] at h

/-- A plain name leads to the file of that name. -/
theorem place_k : place "k" = .file "k" := by
  have hcontains : "k".contains '\x00' = false := by simp
  have hends : "k".endsWith "/" = false := by decide +kernel
  have hparts : ("k".splitOn "/").filter (· ≠ "") = ["k"] := by
    rw [String.splitOn, if_neg (by decide), String.splitOnAux, if_neg (by decide),
      if_neg (by decide), String.splitOnAux, if_pos (by decide)]
    decide +kernel
  rw [place]
  simp only [hparts, hcontains, hends]
  decide +kernel

/-! ### Holding -/

section Hold

variable {directory : Directory} {path name : String} (hplace : place path = .file name)

include hplace

/-- A file that nobody holds is given with its bytes, an empty one if there is none. -/
theorem hold_file (hfree : name ∉ directory.held) :
    let bytes := (directory.files.get? name).getD []
    directory.hold path =
      .ok (bytes, ⟨directory.files.insert name bytes, name :: directory.held⟩) := by
  have hheld : directory.held.contains name = false := by simpa using hfree
  simp only [hold, nameToWrite, hplace, hheld, Bool.false_eq_true, ↓reduceIte]

theorem release_file (bytes : Bytes) :
    directory.release path bytes =
      ⟨directory.files.insert name bytes, directory.held.erase name⟩ := by
  simp only [release, nameToWrite, hplace]

end Hold

/-! ### Actions -/

/-- An action goes on with what the one before it gave and left. -/
theorem run_bind_eq {σ α β : Type} {first : StateM σ α} {next : α → StateM σ β}
    {files files' : σ} {result : α} (h : first.run files = (result, files')) :
    (first >>= next).run files = (next result).run files' := by
  rw [StateT.run_bind, h]
  rfl

theorem run_get (directory : Directory) :
    (get : StateM Directory Directory).run directory = (directory, directory) := rfl

theorem run_isPresent (directory : Directory) (path : String) :
    (access.isPresent path).run directory = (directory.isPresent path, directory) := rfl

theorem run_read (directory : Directory) (path : String) :
    (access.read path).run directory = (directory.read path, directory) := rfl

theorem run_write_ok {directory after : Directory} {path : String} {bytes : Bytes}
    (h : directory.write path bytes = .ok after) :
    (access.write path bytes).run directory = (.ok (), after) := by
  unfold access
  dsimp only
  rw [run_bind_eq (run_get directory), h]
  rfl

theorem run_write_error {directory : Directory} {path : String} {bytes : Bytes} {fault : PathFault}
    (h : directory.write path bytes = .error fault) :
    (access.write path bytes).run directory = (.error fault, directory) := by
  unfold access
  dsimp only
  rw [run_bind_eq (run_get directory), h]
  rfl

theorem run_hold_ok {directory after : Directory} {path : String} {bytes : Bytes}
    (h : directory.hold path = .ok (bytes, after)) :
    (access.hold path).run directory = (.ok bytes, after) := by
  unfold access
  dsimp only
  rw [run_bind_eq (run_get directory), h]
  rfl

end DocumentServer.Directory
