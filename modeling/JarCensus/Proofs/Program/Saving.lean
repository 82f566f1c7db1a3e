import JarCensus.Program.Basic
import JarCensus.Proofs.FileSystem.Writing

/-!
# What a run leaves behind

A run that saves bytes leaves them where they were asked for. A run that ends in a fault leaves
every file that could be read as it was, whatever folders it has made.
-/

namespace JarCensus.Program

variable {fs files : FileSystem} {path : String} {content : Bytes} {fault : Fault}

/-- Bytes are saved exactly when the folder of the path is made and they are written. -/
theorem save_eq_ok_iff : save fs path content = (files, .ok ()) ↔
    ∃ made, fs.makeFolders ((Path.parent? path).getD "") = (made, .ok ()) ∧
      made.write path content = .ok files := by
  unfold save
  cases hfolders : fs.makeFolders ((Path.parent? path).getD "") with
  | mk made folders =>
    cases folders with
    | error cause => simp [hfolders]
    | ok done => cases hwrite : made.write path content <;> simp [hfolders, hwrite]

/-- Any bytes can be saved at a path that takes a file. -/
theorem exists_save_of_takesFile (htakes : fs.TakesFile path) (content : Bytes) :
    ∃ files, save fs path content = (files, .ok ()) := by
  obtain ⟨made, other, files, hmade, hother⟩ := htakes
  obtain ⟨files, hwrite⟩ := FileSystem.exists_write_of_write hother content
  exact ⟨files, save_eq_ok_iff.mpr ⟨made, hmade, hwrite⟩⟩

/-- Bytes that were saved at a path are what is read there. -/
theorem read_save (hsave : save fs path content = (files, .ok ())) :
    files.read path = .ok content := by
  obtain ⟨made, -, hwrite⟩ := save_eq_ok_iff.mp hsave
  exact FileSystem.read_write hwrite

/-- A save that ends in a fault takes nothing away. -/
theorem keeps_of_save_eq_error (hsave : save fs path content = (files, .error fault)) :
    FileSystem.Keeps Eq fs files := by
  have hmade := FileSystem.keeps_makeFolders fs ((Path.parent? path).getD "")
  unfold save at hsave
  cases hfolders : fs.makeFolders ((Path.parent? path).getD "") with
  | mk made folders =>
    simp only [hfolders] at hmade hsave
    cases folders with
    | error cause =>
      cases hsave
      exact hmade
    | ok done =>
      simp only at hsave
      split at hsave <;> cases hsave
      exact hmade

/-- A product that cannot be delivered takes nothing away. -/
theorem keeps_of_deliver_eq_error {duration : Nat} {product : Product}
    (hdeliver : deliver fs duration product = (files, .error fault)) :
    FileSystem.Keeps Eq fs files := by
  have hsaved : ∀ {path content left saved}, save fs path content = (left, saved) →
      (left, saved.map fun _ => "") = (files, .error fault) → FileSystem.Keeps Eq fs files := by
    intro path content left saved hsave hmapped
    cases saved with
    | error cause =>
      obtain ⟨rfl, -⟩ := Prod.mk.inj hmapped
      exact keeps_of_save_eq_error hsave
    | ok done => cases (Prod.mk.inj hmapped).2
  cases product with
  | scanned report format output =>
    cases output with
    | none => cases hdeliver
    | some output =>
      cases hsave : save fs output (report.write format duration).toUTF8.toList with
      | mk left saved =>
        simp only [deliver, hsave] at hdeliver
        exact hsaved hsave hdeliver
  | inspected report => cases hdeliver
  | encrypted bytes output =>
    cases hsave : save fs output bytes with
    | mk left saved =>
      simp only [deliver, hsave] at hdeliver
      exact hsaved hsave hdeliver

/-- Every file that can be read before a run can be read with the same bytes after it, unless the
run ends well. -/
theorem read_of_run {environment : Environment} {duration : Nat} {arguments : List String}
    {pools : PoolBuilder} {ending : Ending}
    (hrun : run fs environment duration arguments pools = .ok ending)
    (hfault : ending.exitCode ≠ 0) (hread : fs.read path = .ok content) :
    ending.files.read path = .ok content := by
  obtain ⟨line, -, hend⟩ := bind_eq_ok_iff.mp hrun
  cases hend
  revert hfault
  unfold finish
  split
  · exact fun _ => hread
  · split
    · exact fun hfault => absurd rfl hfault
    · rename_i hdeliver
      exact fun _ => (keeps_of_deliver_eq_error hdeliver).read hread

end JarCensus.Program
