-- SUMMARY: Names as hard links to files: what creating, writing, linking and unlinking leave of the other names.
import Mathlib.Logic.Function.Basic

/-!
# Hard links

A name is a link to a file, and several names may be links to one. A new file is created under a name that is
free; the file behind a name can be given another name, and a name can be removed.
-/

namespace Links

variable {ι : Type}

structure Disk (ι : Type) where
  names : String → Option ι
  contents : ι → String

namespace Disk

/-- The content behind a name. -/
def read (d : Disk ι) (name : String) : Option String := (d.names name).map d.contents

section
variable [DecidableEq ι]

/-- A new file under a name. -/
def create (d : Disk ι) (name : String) (i : ι) : Disk ι where
  names := Function.update d.names name (some i)
  contents := Function.update d.contents i ""

def write (d : Disk ι) (i : ι) (text : String) : Disk ι := { d with contents := Function.update d.contents i text }

@[simp] theorem names_create (d : Disk ι) (name name' : String) (i : ι) :
    (d.create name i).names name' = if name' = name then some i else d.names name' :=
  Function.update_apply _ _ _ _

@[simp] theorem contents_create (d : Disk ι) (name : String) (i j : ι) :
    (d.create name i).contents j = if j = i then "" else d.contents j :=
  Function.update_apply _ _ _ _

@[simp] theorem names_write (d : Disk ι) (i : ι) (text : String) : (d.write i text).names = d.names := rfl

@[simp] theorem contents_write (d : Disk ι) (i j : ι) (text : String) :
    (d.write i text).contents j = if j = i then text else d.contents j :=
  Function.update_apply _ _ _ _

end

/-- One more name of a file. -/
def link (d : Disk ι) (i : ι) (name : String) : Disk ι :=
  { d with names := Function.update d.names name (some i) }

def unlink (d : Disk ι) (name : String) : Disk ι := { d with names := Function.update d.names name none }

@[simp] theorem names_link (d : Disk ι) (i : ι) (name name' : String) :
    (d.link i name).names name' = if name' = name then some i else d.names name' :=
  Function.update_apply _ _ _ _

@[simp] theorem contents_link (d : Disk ι) (i : ι) (name : String) : (d.link i name).contents = d.contents := rfl

@[simp] theorem names_unlink (d : Disk ι) (name name' : String) :
    (d.unlink name).names name' = if name' = name then none else d.names name' :=
  Function.update_apply _ _ _ _

@[simp] theorem contents_unlink (d : Disk ι) (name : String) : (d.unlink name).contents = d.contents := rfl

theorem read_eq_some {d : Disk ι} {name text : String} :
    d.read name = some text ↔ ∃ i, d.names name = some i ∧ d.contents i = text :=
  Option.map_eq_some_iff

end Disk

end Links
