import DataShapes.Proofs.Table
import DataShapes.Registry

/-!
# Registries by what was written to them

An open registry takes entries one after the other, and what a look-up finds is the last entry that
was written under the key.  Recording one reference, recording an embedded shape and merging a whole
registry are all the same thing: a bundle of writes.

Main definitions:
* `Writes`, `Registry.write`: a bundle of writes, and a registry that took it;
* `LookupKey`, `Registry.find?`, `Writes.find?`: what is looked up, and the entry that is found.

Main statements:
* `Registry.find?_write`: a look-up finds the last write of its key, else what was there before;
* `Registry.result_merge`: merging into an open registry writes what the other one holds.
-/

namespace DataShapes

/-! ### Bundles of writes -/

/-- What is written to a registry: references under their paths, and embedded shapes under their
    titles. -/
structure Writes where
  entries : List (String × String) := []
  inlined : List (String × String) := []

namespace Writes

instance : Append Writes := ⟨fun w x => ⟨w.entries ++ x.entries, w.inlined ++ x.inlined⟩⟩

@[simp] theorem entries_append (w x : Writes) : (w ++ x).entries = w.entries ++ x.entries := rfl

@[simp] theorem inlined_append (w x : Writes) : (w ++ x).inlined = w.inlined ++ x.inlined := rfl

end Writes

namespace Registry

/-- What a registry holds, as writes to another one. -/
def content (r : Registry) : Writes := ⟨r.entries, r.inlined⟩

/-- The registry after a bundle of writes. -/
def write (r : Registry) (w : Writes) : Registry :=
  { r with entries := r.entries.putAll w.entries, inlined := r.inlined.putAll w.inlined }

/-- Writes do not seal a registry. -/
@[simp] theorem isSealed_write (r : Registry) (w : Writes) : (r.write w).isSealed = r.isSealed :=
  rfl

@[simp] theorem entries_write (r : Registry) (w : Writes) :
    (r.write w).entries = r.entries.putAll w.entries := rfl

@[simp] theorem inlined_write (r : Registry) (w : Writes) :
    (r.write w).inlined = r.inlined.putAll w.inlined := rfl

@[simp] theorem write_empty (r : Registry) : r.write {} = r := rfl

/-- Bundles are written one after the other. -/
theorem write_append (r : Registry) (w x : Writes) : r.write (w ++ x) = (r.write w).write x := by
  simp [write, Table.putAll_append]

/-- A path leads to what was written for it last, or else where it led before. -/
theorem resolve_write (r : Registry) (w : Writes) (path : String) :
    (r.write w).resolve path = (Table.lastOf w.entries path).or (r.resolve path) :=
  Table.get?_putAll ..

@[simp] theorem resolve_close (r : Registry) (path : String) :
    r.close.resolve path = r.resolve path := rfl

@[simp] theorem inlined_close (r : Registry) : r.close.inlined = r.inlined := rfl

@[simp] theorem entries_close (r : Registry) : r.close.entries = r.entries := rfl

/-! ### What the operations write -/

/-- Recording a path is a write. -/
theorem record_eq_write {r : Registry} (h : r.isSealed = false) (path unit : String) :
    (r.record path unit).result = .ok (r.write ⟨[(path, unit)], []⟩) := result_record h path unit

/-- Recording the name of an embedded shape is a write. -/
theorem recordInline_eq_write {r : Registry} (h : r.isSealed = false) (title unit : String) :
    (r.recordInline title unit).result = .ok (r.write ⟨[], [(title, unit)]⟩) := by
  have hopen : (r.checkOpen title).result = .ok () := by simp [checkOpen, h]
  unfold recordInline
  rw [Noted.result_bind, hopen]
  rfl

/-- Recording paths one by one writes all of them. -/
theorem result_recordAll {r : Registry} (h : r.isSealed = false) (es : List (String × String)) :
    (r.recordAll es).result = .ok (r.write ⟨es, []⟩) := by
  induction es generalizing r with
  | nil => rfl
  | cons e es ih =>
    unfold recordAll
    rw [Noted.result_bind, record_eq_write h]
    exact ih (r := r.write ⟨[e], []⟩) h

/-- Recording the names of embedded shapes one by one writes all of them. -/
theorem result_recordAllInline {r : Registry} (h : r.isSealed = false)
    (es : List (String × String)) :
    (r.recordAllInline es).result = .ok (r.write ⟨[], es⟩) := by
  induction es generalizing r with
  | nil => rfl
  | cons e es ih =>
    unfold recordAllInline
    rw [Noted.result_bind, recordInline_eq_write h]
    exact ih (r := r.write ⟨[], [e]⟩) h

/-- Merging into an open registry writes what the other one holds. -/
theorem result_merge {r : Registry} (h : r.isSealed = false) (other : Registry) :
    (r.merge other).result = .ok (r.write other.content) := by
  unfold merge
  rw [Noted.result_bind, result_recordAll h]
  exact result_recordAllInline (r := r.write ⟨other.entries, []⟩) h other.inlined

end Registry

/-! ### Look-ups -/

/-- What is looked up in a registry: the path of a reference, or the title of an embedded shape. -/
inductive LookupKey where
  | path (path : String)
  | title (title : String)
deriving DecidableEq

/-- The last entry under a key of a bundle of writes. -/
def Writes.find? (w : Writes) : LookupKey → Option String
  | .path path => Table.lastOf w.entries path
  | .title title => Table.lastOf w.inlined title

/-- Of two bundles the second one counts first. -/
theorem Writes.find?_append (w x : Writes) (k : LookupKey) :
    (w ++ x).find? k = (x.find? k).or (w.find? k) := by
  cases k with
  | path path => exact Table.lastOf_append ..
  | title title => exact Table.lastOf_append ..

@[simp] theorem Writes.find?_empty (k : LookupKey) : ({} : Writes).find? k = none := by
  cases k <;> rfl

namespace Registry

/-- The entry of a registry under a key. -/
def find? (r : Registry) : LookupKey → Option String
  | .path path => r.resolve path
  | .title title => r.inlined.get? title

/-- A look-up finds what was written last, or else what it found before. -/
theorem find?_write (r : Registry) (w : Writes) (k : LookupKey) :
    (r.write w).find? k = (w.find? k).or (r.find? k) := by
  cases k with
  | path path => exact resolve_write ..
  | title title => exact Table.get?_putAll ..

/-- Sealing changes no look-up. -/
@[simp] theorem find?_close (r : Registry) (k : LookupKey) : r.close.find? k = r.find? k := by
  cases k <;> rfl

/-- The name that reading a schema finds under a key. -/
def nameOf (r : Registry) : LookupKey → Option String
  | .path path => r.resolve path
  | .title title => some (r.inlinedName title)

/-- What a key is called depends on its look-up alone. -/
theorem nameOf_congr {r t : Registry} {k : LookupKey} (h : r.find? k = t.find? k) :
    r.nameOf k = t.nameOf k := by
  cases k with
  | path path => exact h
  | title title => exact congrArg (fun u => some (u.getD title)) h

/-- Where there is an entry, it is the name that is found. -/
theorem nameOf_of_find? {r : Registry} {k : LookupKey} {unit : String}
    (h : r.find? k = some unit) : r.nameOf k = some unit := by
  cases k with
  | path path => exact h
  | title title =>
    have hget : r.inlined.get? title = some unit := h
    simp [nameOf, inlinedName, hget]

end Registry

end DataShapes
