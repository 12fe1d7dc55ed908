/-
This file is about records whose fields are stored one by one under names, and are read back one by
one from a document that may hold other names and may lack some of them. A field of which the
document says nothing is left as it is. A value that cannot be read ends the reading, and what was
read before it stays.
-/

import Mathlib.Data.Prod.Basic
import Mathlib.Logic.Basic

namespace Record

/-- A computation that changes a record as it goes, and that may throw. -/
abbrev Update (Error Whole : Type) := ExceptT Error (StateM Whole)

/-- How an update ends, and what it leaves of the record. -/
def Update.apply {Error Whole : Type} (update : Update Error Whole Unit) (target : Whole) :
    Except Error Unit × Whole :=
  update.run target

/-- A value is computed that does not depend on the record. -/
def Update.ofExcept {Error Whole Value : Type} (result : Except Error Value) :
    Update Error Whole Value :=
  ExceptT.mk (pure result)

/-- A field of a record, with the name it is stored under and the form it is stored in. -/
structure Field (Key Stored Error Whole : Type) where
  key : Key
  Value : Type
  get : Whole → Value
  set : Value → Whole → Whole
  encode : Value → Stored
  decode : Stored → Except Error Value

/-- What a document says under each name. -/
abbrev Document (Key Stored : Type) := Key → Option Stored

variable {Key Stored Error Whole : Type}

/-- What a second document says, and what the first says where the second says nothing. -/
def laidOver (second first : Document Key Stored) : Document Key Stored :=
  fun key => (second key).or (first key)

namespace Field

variable (field : Field Key Stored Error Whole)

/-- A field is read if the document has it. -/
def read (document : Document Key Stored) : Update Error Whole Unit :=
  match document field.key with
  | none => pure ()
  | some stored => do modify (field.set (← Update.ofExcept (field.decode stored)))

/-- The document says something under the name of the field that cannot be read. -/
def Unreadable (document : Document Key Stored) : Prop :=
  ∃ stored error, document field.key = some stored ∧ field.decode stored = .error error

/-- What comes back of the field of a record that is stored. -/
def kept (whole : Whole) : field.Value :=
  match field.decode (field.encode (field.get whole)) with
  | .ok value => value
  | .error _ => field.get whole

/-- What is stored can be read. -/
def Readable : Prop :=
  ∀ whole, field.decode (field.encode (field.get whole)) = .ok (field.kept whole)

/-- A field that is set again forgets the first value. -/
def Overwrites : Prop :=
  ∀ value earlier whole, field.set value (field.set earlier whole) = field.set value whole

/-- Two fields are set independently of each other. -/
def Apart (field other : Field Key Stored Error Whole) : Prop :=
  ∀ value another whole,
    field.set value (other.set another whole) = other.set another (field.set value whole)

/-- A field is not changed when the other is set. -/
def Unmoved (field other : Field Key Stored Error Whole) : Prop :=
  ∀ value whole, field.get (other.set value whole) = field.get whole

end Field

/-- The record under its names. -/
def store (fields : List (Field Key Stored Error Whole)) (whole : Whole) : List (Key × Stored) :=
  fields.map fun field => (field.key, field.encode (field.get whole))

/-- The fields are read in their order, up to the first that cannot be read. -/
def load : List (Field Key Stored Error Whole) → Document Key Stored → Update Error Whole Unit
  | [], _ => pure ()
  | field :: fields, document => do
    field.read document
    load fields document

/-- What comes back of a record is taken over into another. -/
def copy (fields : List (Field Key Stored Error Whole)) (whole target : Whole) : Whole :=
  fields.foldl (fun target field => field.set (field.kept whole) target) target

variable {document first second : Document Key Stored} {field : Field Key Stored Error Whole}
  {fields before after : List (Field Key Stored Error Whole)} {whole target : Whole}
  {stored : Stored} {error : Error}

/-! ### One field -/

@[simp]
theorem load_nil : (load ([] : List (Field Key Stored Error Whole)) document).apply target =
    (.ok (), target) := rfl

theorem load_absent (absent : document field.key = none) :
    (load (field :: fields) document).apply target = (load fields document).apply target := by
  rw [load, Field.read, absent]
  rfl

theorem load_read {value : field.Value} (present : document field.key = some stored)
    (read : field.decode stored = .ok value) :
    (load (field :: fields) document).apply target =
      (load fields document).apply (field.set value target) := by
  rw [load, Field.read, present]
  dsimp only
  rw [read]
  rfl

theorem load_unreadable (present : document field.key = some stored)
    (read : field.decode stored = .error error) :
    (load (field :: fields) document).apply target = (.error error, target) := by
  rw [load, Field.read, present]
  dsimp only
  rw [read]
  rfl

namespace Field

theorem not_unreadable_of_absent (absent : document field.key = none) :
    ¬ field.Unreadable document := by
  rintro ⟨stored, error, present, _⟩
  cases absent.symm.trans present

theorem not_unreadable_of_read {value : field.Value} (present : document field.key = some stored)
    (read : field.decode stored = .ok value) : ¬ field.Unreadable document := by
  rintro ⟨other, error, there, failed⟩
  obtain rfl := Option.some.inj (present.symm.trans there)
  cases read.symm.trans failed

theorem Apart.symm {other : Field Key Stored Error Whole} (apart : field.Apart other) :
    other.Apart field :=
  fun value another whole => (apart another value whole).symm

end Field

/-! ### Any document -/

/-- A reading throws exactly when some field that is present cannot be read. -/
theorem load_ok_iff : ((load fields document).apply target).1 = .ok () ↔
    ∀ field ∈ fields, ¬ field.Unreadable document := by
  induction fields generalizing target with
  | nil => simp
  | cons field fields inductionHypothesis =>
    rw [List.forall_mem_cons]
    cases present : document field.key with
    | none =>
      rw [load_absent present, inductionHypothesis,
        and_iff_right (Field.not_unreadable_of_absent present)]
    | some stored =>
      cases read : field.decode stored with
      | ok value =>
        rw [load_read present read, inductionHypothesis,
          and_iff_right (Field.not_unreadable_of_read present read)]
      | error error =>
        rw [load_unreadable present read]
        refine ⟨fun ended => ?_, fun readable =>
          absurd ⟨stored, error, present, read⟩ readable.1⟩
        cases ended

/-- The fields before one that cannot be read are read as if there were no others, and the fields
behind it are not looked at. -/
theorem load_stops (readable : ∀ field ∈ before, ¬ field.Unreadable document)
    (present : document field.key = some stored) (read : field.decode stored = .error error) :
    (load (before ++ field :: after) document).apply target =
      (.error error, ((load before document).apply target).2) := by
  induction before generalizing target with
  | nil => exact load_unreadable present read
  | cons earlier before inductionHypothesis =>
    rw [List.forall_mem_cons] at readable
    rw [List.cons_append]
    cases there : document earlier.key with
    | none => rw [load_absent there, load_absent there, inductionHypothesis readable.2]
    | some other =>
      cases fine : earlier.decode other with
      | ok value =>
        rw [load_read there fine, load_read there fine, inductionHypothesis readable.2]
      | error error => exact absurd ⟨other, error, there, fine⟩ readable.1

/-- A field whose name the document does not have is left as it is, however the reading ends. -/
theorem get_load (unmoved : ∀ other ∈ fields, other.key ≠ field.key → field.Unmoved other)
    (absent : document field.key = none) :
    field.get ((load fields document).apply target).2 = field.get target := by
  induction fields generalizing target with
  | nil => rfl
  | cons other fields inductionHypothesis =>
    rw [List.forall_mem_cons] at unmoved
    cases present : document other.key with
    | none => rw [load_absent present, inductionHypothesis unmoved.2]
    | some stored =>
      have different : other.key ≠ field.key := by
        intro same
        rw [same, absent] at present
        cases present
      cases read : other.decode stored with
      | ok value =>
        rw [load_read present read, inductionHypothesis unmoved.2, unmoved.1 different]
      | error error => rw [load_unreadable present read]

/-- A field that stands apart from all that are read may as well be set after them. -/
theorem load_set (apart : ∀ other ∈ fields, other.Apart field) (value : field.Value) :
    (load fields document).apply (field.set value target) =
      (((load fields document).apply target).1,
        field.set value ((load fields document).apply target).2) := by
  induction fields generalizing target with
  | nil => rfl
  | cons other fields inductionHypothesis =>
    rw [List.forall_mem_cons] at apart
    cases present : document other.key with
    | none => rw [load_absent present, load_absent present, inductionHypothesis apart.2]
    | some stored =>
      cases read : other.decode stored with
      | ok another =>
        rw [load_read present read, load_read present read, apart.1, inductionHypothesis apart.2]
      | error error => rw [load_unreadable present read, load_unreadable present read]

/-! ### Two documents -/

/-- A document is read into what another left, and the fields are those of the two documents laid
over each other. -/
theorem load_load (overwrites : ∀ field ∈ fields, field.Overwrites)
    (apart : fields.Pairwise Field.Apart)
    (readable : ((load fields first).apply target).1 = .ok ()) :
    ((load fields (laidOver second first)).apply target).1 =
        ((load fields second).apply ((load fields first).apply target).2).1 ∧
      (((load fields second).apply ((load fields first).apply target).2).1 = .ok () →
        ((load fields (laidOver second first)).apply target).2 =
          ((load fields second).apply ((load fields first).apply target).2).2) := by
  induction fields generalizing target with
  | nil => exact ⟨rfl, fun _ => rfl⟩
  | cons field fields inductionHypothesis =>
    rw [List.forall_mem_cons] at overwrites
    rw [List.pairwise_cons] at apart
    have behind (other : Field Key Stored Error Whole) (member : other ∈ fields) :
        other.Apart field := (apart.1 other member).symm
    cases new : second field.key with
    | none =>
      have both : laidOver second first field.key = first field.key := by
        rw [laidOver, new, Option.none_or]
      cases old : first field.key with
      | none =>
        rw [load_absent old] at readable
        rw [load_absent (both.trans old), load_absent old, load_absent new]
        exact inductionHypothesis overwrites.2 apart.2 readable
      | some stored =>
        cases read : field.decode stored with
        | ok value =>
          rw [load_read old read] at readable
          rw [load_read (both.trans old) read, load_read old read, load_absent new]
          exact inductionHypothesis overwrites.2 apart.2 readable
        | error error =>
          rw [load_unreadable old read] at readable
          cases readable
    | some stored =>
      have both : laidOver second first field.key = some stored := by
        rw [laidOver, new, Option.some_or]
      cases read : field.decode stored with
      | error error =>
        rw [load_unreadable both read, load_unreadable new read]
        exact ⟨rfl, nofun⟩
      | ok value =>
        -- what the first document said of this field is forgotten
        have forgotten : field.set value ((load (field :: fields) first).apply target).2 =
            ((load fields first).apply (field.set value target)).2 ∧
            ((load fields first).apply (field.set value target)).1 = .ok () := by
          rw [load_set behind]
          cases old : first field.key with
          | none =>
            rw [load_absent old] at readable
            rw [load_absent old]
            exact ⟨rfl, readable⟩
          | some earlier =>
            cases fine : field.decode earlier with
            | ok another =>
              rw [load_read old fine, load_set behind] at readable
              rw [load_read old fine, load_set behind]
              exact ⟨overwrites.1 _ _ _, readable⟩
            | error error =>
              rw [load_unreadable old fine] at readable
              cases readable
        rw [load_read both read, load_read new read, forgotten.1]
        exact inductionHypothesis overwrites.2 apart.2 forgotten.2

/-! ### What was stored -/

/-- What was stored is read into any target. -/
theorem load_store (readable : ∀ field ∈ fields, field.Readable)
    (holds : ∀ key stored, (key, stored) ∈ store fields whole → document key = some stored) :
    (load fields document).apply target = (.ok (), copy fields whole target) := by
  induction fields generalizing target with
  | nil => rfl
  | cons field fields inductionHypothesis =>
    rw [List.forall_mem_cons] at readable
    rw [load_read (holds _ _ List.mem_cons_self) (readable.1 whole),
      inductionHypothesis readable.2 fun key stored member =>
        holds key stored (List.mem_cons_of_mem _ member)]
    rfl

end Record
