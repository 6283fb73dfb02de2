import DateTimeText.Chronology
import DateTimeText.Error
import DateTimeText.Zone

/-!
# Components of date-time values

A value is seen through its components: the fields it has, its zone and its chronology. Formats
write them and read them back. Nothing keeps the fields that were read consistent with each other.
-/

namespace DateTimeText

/-- Some fields, and perhaps a zone and a chronology. -/
@[ext]
structure Components where
  field : Field → Option Int
  zone : Option ZoneId
  chronology : Option Chronology

namespace Components

def empty : Components := ⟨fun _ => none, none, none⟩

instance : Inhabited Components := ⟨empty⟩

/-- The components with `value` for a field, whatever was there. -/
def set (v : Components) (f : Field) (value : Int) : Components :=
  { v with field := fun g => if g = f then some value else v.field g }

@[simp] theorem field_set (v : Components) (f g : Field) (value : Int) :
    (v.set f value).field g = if g = f then some value else v.field g := rfl

@[simp] theorem zone_set (v : Components) (f : Field) (value : Int) :
    (v.set f value).zone = v.zone := rfl

@[simp] theorem chronology_set (v : Components) (f : Field) (value : Int) :
    (v.set f value).chronology = v.chronology := rfl

def withZone (v : Components) (zone : ZoneId) : Components :=
  { v with zone := some zone }

def withChronology (v : Components) (chronology : Chronology) : Components :=
  { v with chronology := some chronology }

/-- What the first components have, else what the second have. -/
def orElse (v w : Components) : Components where
  field f := (v.field f).or (w.field f)
  zone := v.zone.or w.zone
  chronology := v.chronology.or w.chronology

/-- The fields that are there with their values, in the order of `Field.all`. -/
def toList (v : Components) : List (Field × Int) :=
  Field.all.filterMap fun f => (v.field f).map (f, ·)

def size (v : Components) : Nat :=
  v.toList.length

/-- Checks each field that is there against its range in a calendar. -/
def checkRanges (v : Components) (c : Chronology) : Except PrintError Unit :=
  v.toList.forM fun (f, value) => discard ((c.range f).check f value)

/-- The text of components: the fields in braces, the chronology and the id of the zone. -/
def describe (v : Components) : String :=
  let fields := v.toList.map fun (f, value) => s!"{f.name}={value}"
  "\x7b" ++ String.intercalate ", " fields ++ "\x7d," ++ (v.chronology.map (·.id)).getD "" ++ "," ++
    (v.zone.map fun zone => String.ofList zone.id).getD ""

theorem ext_of_forall_mem {v w : Components} (hf : ∀ f ∈ Field.all, v.field f = w.field f)
    (hz : v.zone = w.zone) (hc : v.chronology = w.chronology) : v = w :=
  Components.ext (funext fun f => hf f (Field.mem_all f)) hz hc

instance : DecidableEq Components := fun v w =>
  decidable_of_iff
    ((∀ f ∈ Field.all, v.field f = w.field f) ∧ v.zone = w.zone ∧ v.chronology = w.chronology)
    ⟨fun h => ext_of_forall_mem h.1 h.2.1 h.2.2, by rintro rfl; simp⟩

end Components

end DateTimeText
