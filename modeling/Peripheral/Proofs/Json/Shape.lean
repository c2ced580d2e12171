import Peripheral.Json.Shape
import Peripheral.Proofs.Json.Reader

/-
  Peripheral.Proofs.Json.Shape — values that are read back from their own JSON.

  A record whose members have different names is opened as it was written (`open?_obj`), and a
  tag in front of other members is found and taken off (`tagged?_obj`). Numbers are read back
  within their range. With that, what a shape reads from the JSON of a value is the value,
  field by field; that it is read back from a text as well follows for all shapes at once
  (`ReadsBack.of_plain`).
-/

namespace Peripheral.Json

/-! ## Fields -/

section Fields

variable {p : Place} {depth n : Nat}

theorem natBelow_nat {limit : Nat} (hn : n < limit) : Shape.natBelow limit p (nat n) = some n := if_pos hn

@[simp] theorem uint8_nat (b : UInt8) : Shape.uint8 p (nat b.toNat) = some b := by
  have hb : b.toNat < 1 <<< 8 := b.toNat_lt
  rw [Shape.uint8, natBelow_nat hb, Option.map_some, UInt8.ofNat_toNat]

@[simp] theorem uint16_nat (b : UInt16) : Shape.uint16 p (nat b.toNat) = some b := by
  have hb : b.toNat < 1 <<< 16 := b.toNat_lt
  rw [Shape.uint16, natBelow_nat hb, Option.map_some, UInt16.ofNat_toNat]

@[simp] theorem uint32_nat (b : UInt32) : Shape.uint32 p (nat b.toNat) = some b := by
  have hb : b.toNat < 1 <<< 32 := b.toNat_lt
  rw [Shape.uint32, natBelow_nat hb, Option.map_some, UInt32.ofNat_toNat]

@[simp] theorem uint64_nat (b : UInt64) : Shape.uint64 p (nat b.toNat) = some b := by
  have hb : b.toNat < 1 <<< 64 := b.toNat_lt
  rw [Shape.uint64, natBelow_nat hb, Option.map_some, UInt64.ofNat_toNat]

@[simp] theorem string_str (s : String) : Shape.string p (str s) = some s := rfl

@[simp] theorem named_str {α : Type} (f : String → Option α) (s : String) : Shape.named f p (str s) = f s := rfl

@[simp] theorem textOf_str {α : Type} (f : String → Option α) (s : String) : Shape.textOf f p (str s) = f s := rfl

theorem optional_ofOption {α : Type} {item : Shape α} {f : α → Json} (hitem : ∀ a, item p (f a) = some a)
    (hnull : ∀ a, f a ≠ null) (o : Option α) : Shape.optional item p (ofOption f o) = some o := by
  cases o with
  | none => rfl
  | some a =>
    unfold ofOption Shape.optional
    split
    · exact absurd ‹_› (hnull a)
    · rw [hitem a]
      rfl

theorem listOf_map {α : Type} {item : Shape α} {f : α → Json} (hitem : ∀ a, item p (f a) = some a) (l : List α) :
    Shape.listOf item p (arr (l.map f)) = some l := by
  show (l.map f).mapM (item p) = some l
  induction l with
  | nil => rfl
  | cons a l ih => simp [hitem, ih]

/-- The numbers of all fields are within the doubles. -/
theorem isPlain_nat (hn : n < 2 ^ 128) : IsPlain depth (nat n) := by
  have hle : 2 ^ 128 ≤ 10 ^ 200 := by decide
  exact Nat.lt_of_lt_of_le hn hle

@[simp] theorem isPlain_uint8 (b : UInt8) : IsPlain depth (nat b.toNat) :=
  isPlain_nat (Nat.lt_of_lt_of_le b.toNat_lt (by decide))

@[simp] theorem isPlain_uint16 (b : UInt16) : IsPlain depth (nat b.toNat) :=
  isPlain_nat (Nat.lt_of_lt_of_le b.toNat_lt (by decide))

@[simp] theorem isPlain_uint32 (b : UInt32) : IsPlain depth (nat b.toNat) :=
  isPlain_nat (Nat.lt_of_lt_of_le b.toNat_lt (by decide))

@[simp] theorem isPlain_uint64 (b : UInt64) : IsPlain depth (nat b.toNat) :=
  isPlain_nat (Nat.lt_of_lt_of_le b.toNat_lt (by decide))

end Fields

/-! ## Records -/

section Records

variable {members : List (String × Json)}

theorem occurrences_eq_count (name : String) (members : List (String × Json)) :
    Record.occurrences name members = (members.map Prod.fst).count name := by
  rw [Record.occurrences, List.count, List.countP_map]
  rfl

theorem open?_obj (fields : List String) (p : Place) (hnames : (members.map Prod.fst).Nodup) :
    Record.open? fields p (obj members) = some ⟨p, false, members⟩ := by
  have hall : (fields.all fun f => decide (Record.occurrences f members ≤ 1)) = true := by
    rw [List.all_eq_true]
    intro f _
    rw [decide_eq_true_eq, occurrences_eq_count]
    exact List.nodup_iff_count.mp hnames f
  exact if_pos hall

theorem tagged?_obj {tag : String} (name : String) (htag : tag ∉ members.map Prod.fst)
    (hreadable : membersReadable members = true) :
    tagged? tag (obj ((tag, str name) :: members)) = some (name, obj members) := by
  have hother : ∀ m ∈ members, m.1 ≠ tag := by
    rintro m hm rfl
    exact htag (List.mem_map_of_mem hm)
  have honce : Record.occurrences tag ((tag, str name) :: members) = 1 := by
    rw [occurrences_eq_count, List.map_cons, List.count_cons_self, List.count_eq_zero_of_not_mem htag]
  have hrest : members.filter (fun m => m.1 != tag) = members := by
    rw [List.filter_eq_self]
    intro m hm
    simpa using hother m hm
  simp [tagged?, membersReadable, isReadable, hreadable, honce, hrest]

end Records

/-! ## Texts -/

/-- Each valid value is read back from its own text, and so is each value that was read from any text. -/
structure ReadsBack {α : Type} (valid : α → Prop) (toJson : α → Json) (shape : Shape α) : Prop where
  back : ∀ a, valid a → decode? shape (toJson a).text = some a
  again : ∀ text a, decode? shape text = some a → decode? shape (toJson a).text = some a

theorem ReadsBack.of_plain {α : Type} {valid : α → Prop} {toJson : α → Json} {shape : Shape α}
    (hplain : ∀ a, valid a → IsPlain 0 (toJson a)) (hshape : ∀ a, valid a → shape .text (toJson a) = some a)
    (hvalid : ∀ j a, shape .text j = some a → valid a) : ReadsBack valid toJson shape := by
  have hback : ∀ a, valid a → decode? shape (toJson a).text = some a := by
    intro a ha
    rw [decode?, ofText?_text (hplain a ha)]
    exact hshape a ha
  refine ⟨hback, ?_⟩
  intro text a ha
  obtain ⟨j, -, hj⟩ := Option.bind_eq_some_iff.mp ha
  exact hback a (hvalid j a hj)

theorem ReadsBack.of_always {α : Type} {toJson : α → Json} {shape : Shape α} (hplain : ∀ a, IsPlain 0 (toJson a))
    (hshape : ∀ a, shape .text (toJson a) = some a) : ReadsBack (fun _ => True) toJson shape :=
  of_plain (fun a _ => hplain a) (fun a _ => hshape a) fun _ _ _ => trivial

end Peripheral.Json
