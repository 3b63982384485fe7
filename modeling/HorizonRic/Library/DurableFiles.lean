import Mathlib.Logic.Function.Basic
import Mathlib.Data.List.Basic

/-!
Files under names, as running programs see them and as a crash may leave them. A
crash takes the directory back to some state since its last sync, and keeps the
data of the files that were synced after their last write; the data of others
may be anything.
-/
namespace DurableFiles

variable {Name Content : Type}

structure Disk (Name Content : Type) where
  dir : Name → Option ℕ
  /-- The directory before each change since its last sync. -/
  older : List (Name → Option ℕ) := []
  data : ℕ → Content
  synced : ℕ → Bool

namespace Disk

/-- What a running program finds under a name. -/
def view (disk : Disk Name Content) (name : Name) : Option Content := (disk.dir name).map disk.data

/-- The files may be found so after a crash. -/
def Leaves (disk : Disk Name Content) (files : Name → Option Content) : Prop :=
  ∃ dir ∈ disk.dir :: disk.older, ∃ data : ℕ → Content,
    (∀ i, disk.synced i = true → data i = disk.data i) ∧ ∀ name, files name = (dir name).map data

/-- A write to a file. -/
def write (disk : Disk Name Content) (i : ℕ) (content : Content) : Disk Name Content :=
  { disk with
    data := Function.update disk.data i content
    synced := Function.update disk.synced i false }

def fsync (disk : Disk Name Content) (i : ℕ) : Disk Name Content :=
  { disk with synced := Function.update disk.synced i true }

def fsyncDir (disk : Disk Name Content) : Disk Name Content := { disk with older := [] }

def relink (disk : Disk Name Content) (dir : Name → Option ℕ) : Disk Name Content :=
  { disk with dir := dir, older := disk.dir :: disk.older }

variable [DecidableEq Name]

/-- A new file under the name. -/
def create (disk : Disk Name Content) (name : Name) (i : ℕ) (content : Content) :
    Disk Name Content :=
  (disk.relink (Function.update disk.dir name (some i))).write i content

def unlink (disk : Disk Name Content) (name : Name) : Disk Name Content :=
  disk.relink (Function.update disk.dir name none)

/-- `rename`, which also replaces what stands under the new name. -/
def rename (disk : Disk Name Content) (source target : Name) : Disk Name Content :=
  disk.relink (Function.update (Function.update disk.dir target (disk.dir source)) source none)

end Disk

/-! What one name holds while another file is written and moved into its place. -/

/-- Under the name, this directory has durable content, in another file than `i`. -/
def Settled (disk : Disk Name Content) (name : Name) (i : ℕ) (old : Option Content)
    (dir : Name → Option ℕ) : Prop :=
  match dir name with
  | none => old = none
  | some j => j ≠ i ∧ disk.synced j = true ∧ old = some (disk.data j)

/-- Whatever happens, the name holds its old content. -/
def HoldsOld (disk : Disk Name Content) (name : Name) (i : ℕ) (old : Option Content) : Prop :=
  ∀ dir ∈ disk.dir :: disk.older, Settled disk name i old dir

/-- The name holds the file `i`, which is durable; a crash may bring the old content back. -/
structure HoldsNew (disk : Disk Name Content) (name : Name) (i : ℕ) (old : Option Content)
    (new : Content) : Prop where
  here : disk.dir name = some i
  synced : disk.synced i = true
  data : disk.data i = new
  older : ∀ dir ∈ disk.older, Settled disk name i old dir ∨ dir name = some i

section
variable {disk : Disk Name Content} {name : Name} {i : ℕ} {old : Option Content} {new : Content}

theorem Settled.of_same {disk' : Disk Name Content} {dir : Name → Option ℕ}
    (settled : Settled disk name i old dir) (data : ∀ j, j ≠ i → disk'.data j = disk.data j)
    (synced : ∀ j, j ≠ i → disk'.synced j = disk.synced j) : Settled disk' name i old dir := by
  unfold Settled at settled ⊢
  split
  · rename_i absent
    rw [absent] at settled
    exact settled
  · rename_i j present
    rw [present] at settled
    obtain ⟨other, kept, same⟩ := settled
    exact ⟨other, by rw [synced j other, kept], by rw [data j other, same]⟩

theorem Settled.left {dir : Name → Option ℕ} {data : ℕ → Content}
    (settled : Settled disk name i old dir)
    (kept : ∀ j, disk.synced j = true → data j = disk.data j) : (dir name).map data = old := by
  unfold Settled at settled
  split at settled
  · rename_i absent
    rw [absent, settled]
    rfl
  · rename_i j present
    obtain ⟨_, synced, same⟩ := settled
    rw [present, same, Option.map_some, kept j synced]

theorem HoldsOld.left (holds : HoldsOld disk name i old) {files : Name → Option Content}
    (leaves : disk.Leaves files) : files name = old := by
  obtain ⟨dir, among, data, kept, found⟩ := leaves
  rw [found]
  exact (holds dir among).left kept

theorem HoldsOld.view (holds : HoldsOld disk name i old) : disk.view name = old :=
  (holds disk.dir List.mem_cons_self).left fun _ _ => rfl

theorem HoldsNew.left (holds : HoldsNew disk name i old new) {files : Name → Option Content}
    (leaves : disk.Leaves files) : files name = old ∨ files name = some new := by
  obtain ⟨dir, among, data, kept, found⟩ := leaves
  rw [found]
  have fresh : (some i).map data = some new := by
    rw [Option.map_some, kept i holds.synced, holds.data]
  rcases List.mem_cons.mp among with rfl | before
  · rw [holds.here]
    exact Or.inr fresh
  · rcases holds.older dir before with settled | moved
    · exact Or.inl (settled.left kept)
    · rw [moved]
      exact Or.inr fresh

theorem HoldsNew.view (holds : HoldsNew disk name i old new) : disk.view name = some new := by
  unfold Disk.view
  rw [holds.here, Option.map_some, holds.data]

theorem HoldsOld.write (holds : HoldsOld disk name i old) (content : Content) :
    HoldsOld (disk.write i content) name i old := fun dir among =>
  (holds dir among).of_same (fun _ other => Function.update_of_ne other _ _)
    fun _ other => Function.update_of_ne other _ _

theorem HoldsOld.fsync (holds : HoldsOld disk name i old) : HoldsOld (disk.fsync i) name i old :=
  fun dir among => (holds dir among).of_same (fun _ _ => rfl)
    fun _ other => Function.update_of_ne other _ _

theorem HoldsOld.relink (holds : HoldsOld disk name i old) {dir : Name → Option ℕ}
    (same : dir name = disk.dir name) : HoldsOld (disk.relink dir) name i old := by
  intro d among
  rcases List.mem_cons.mp among with rfl | before
  · have here := holds disk.dir List.mem_cons_self
    unfold Settled at here ⊢
    rw [← same] at here
    exact here
  · exact holds d before

theorem HoldsNew.relink (holds : HoldsNew disk name i old new) {dir : Name → Option ℕ}
    (same : dir name = disk.dir name) : HoldsNew (disk.relink dir) name i old new := by
  refine ⟨same.trans holds.here, holds.synced, holds.data, ?_⟩
  intro d among
  rcases List.mem_cons.mp among with rfl | before
  · exact Or.inr holds.here
  · exact holds.older d before

theorem HoldsNew.fsyncDir (holds : HoldsNew disk name i old new) :
    HoldsNew disk.fsyncDir name i old new :=
  ⟨holds.here, holds.synced, holds.data, fun _ none_ => absurd none_ List.not_mem_nil⟩

variable [DecidableEq Name] {temp : Name}

theorem HoldsOld.create (holds : HoldsOld disk name i old) (other : name ≠ temp)
    (content : Content) : HoldsOld (disk.create temp i content) name i old :=
  (holds.relink (Function.update_of_ne other _ _)).write content

theorem HoldsOld.unlink (holds : HoldsOld disk name i old) (other : name ≠ temp) :
    HoldsOld (disk.unlink temp) name i old := holds.relink (Function.update_of_ne other _ _)

theorem HoldsNew.unlink (holds : HoldsNew disk name i old new) (other : name ≠ temp) :
    HoldsNew (disk.unlink temp) name i old new := holds.relink (Function.update_of_ne other _ _)

/-- The rename of the synced file is the one step between the two. -/
theorem HoldsOld.rename (holds : HoldsOld disk name i old) (other : name ≠ temp)
    (there : disk.dir temp = some i) (synced : disk.synced i = true) (data : disk.data i = new) :
    HoldsNew (disk.rename temp name) name i old new := by
  refine ⟨?_, synced, data, fun dir among => Or.inl (holds dir among)⟩
  show Function.update (Function.update disk.dir name (disk.dir temp)) temp none name = some i
  rw [Function.update_of_ne other, Function.update_self, there]

end

end DurableFiles
