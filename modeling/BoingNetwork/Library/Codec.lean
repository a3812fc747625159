import Mathlib.Data.List.Basic
import Mathlib.Logic.Equiv.Defs

/-!
# Prefix codecs

A codec writes a value as a string of symbols and reads it back from the front of a
longer string.  Its law says that reading undoes writing and accepts nothing else, so
the encoding is injective and no encoding is a proper prefix of another one.
-/

structure Codec (Symbol Value : Type) where
  encode : Value → List Symbol
  decode : List Symbol → Option (Value × List Symbol)
  Valid : Value → Prop
  decode_eq_some : ∀ {symbols value rest},
    decode symbols = some (value, rest) ↔ Valid value ∧ encode value ++ rest = symbols

namespace Codec

variable {Symbol Value Other : Type} (first : Codec Symbol Value) (item : Codec Symbol Value)
  (second : Codec Symbol Other) (values : Value × Other) {value : Value}
  {symbols rest : List Symbol}

theorem decode_append (codec : Codec Symbol Value) (valid : codec.Valid value)
    (rest : List Symbol) :
    codec.decode (codec.encode value ++ rest) = some (value, rest) :=
  codec.decode_eq_some.mpr ⟨valid, rfl⟩

section

variable {first second : Value} (codec : Codec Symbol Value) (firstValid : codec.Valid first)
  (secondValid : codec.Valid second)

include codec firstValid secondValid

theorem append_inj {otherRest : List Symbol}
    (same : codec.encode first ++ rest = codec.encode second ++ otherRest) :
    first = second ∧ rest = otherRest := by
  have decoded := codec.decode_append firstValid rest
  rw [same, codec.decode_append secondValid] at decoded
  simp only [Option.some.injEq, Prod.mk.injEq] at decoded
  exact ⟨decoded.1.symm, decoded.2.symm⟩

theorem encode_injective (same : codec.encode first = codec.encode second) : first = second := by
  have padded : codec.encode first ++ [] = codec.encode second ++ [] := by rw [same]
  exact (codec.append_inj firstValid secondValid padded).1

end

/-- Reads a value and nothing after it. -/
def decodeExact (codec : Codec Symbol Value) (symbols : List Symbol) : Option Value :=
  match codec.decode symbols with
  | some (value, []) => some value
  | _ => none

theorem decodeExact_eq_some (codec : Codec Symbol Value) :
    codec.decodeExact symbols = some value ↔ codec.Valid value ∧ codec.encode value = symbols := by
  have law : codec.decode symbols = some (value, []) ↔
      codec.Valid value ∧ codec.encode value ++ [] = symbols := codec.decode_eq_some
  rw [List.append_nil] at law
  rw [← law, decodeExact]
  split
  next decoded => rw [decoded, Option.some.injEq, Option.some.injEq, Prod.mk.injEq]; simp
  next other =>
    simp only [reduceCtorEq, false_iff]
    exact other value

def congr (codec : Codec Symbol Value) (equiv : Value ≃ Other) : Codec Symbol Other where
  encode other := codec.encode (equiv.symm other)
  decode symbols := (codec.decode symbols).map fun (value, rest) => (equiv value, rest)
  Valid other := codec.Valid (equiv.symm other)
  decode_eq_some := by
    intro symbols other rest
    rw [← codec.decode_eq_some]
    cases codec.decode symbols with
    | none => simp
    | some result =>
      obtain ⟨value, left⟩ := result
      simp [Equiv.eq_symm_apply]

def pair (first : Codec Symbol Value) (second : Codec Symbol Other) :
    Codec Symbol (Value × Other) where
  encode values := first.encode values.1 ++ second.encode values.2
  decode symbols := do
    let (value, afterFirst) ← first.decode symbols
    let (other, rest) ← second.decode afterFirst
    return ((value, other), rest)
  Valid values := first.Valid values.1 ∧ second.Valid values.2
  decode_eq_some := by
    intro symbols values rest
    constructor
    · intro decoded
      simp only [Option.bind_eq_bind, Option.bind_eq_some_iff, Option.pure_def,
        Option.some.injEq, Prod.exists, Prod.mk.injEq] at decoded
      obtain ⟨value, afterFirst, readFirst, other, remaining, readSecond, rfl, rfl⟩ := decoded
      obtain ⟨firstValid, rfl⟩ := first.decode_eq_some.mp readFirst
      obtain ⟨secondValid, rfl⟩ := second.decode_eq_some.mp readSecond
      exact ⟨⟨firstValid, secondValid⟩, List.append_assoc _ _ _⟩
    · rintro ⟨⟨firstValid, secondValid⟩, rfl⟩
      rw [List.append_assoc, first.decode_append firstValid]
      simp [second.decode_append secondValid]

@[simp]
theorem pair_encode :
    (pair first second).encode values = first.encode values.1 ++ second.encode values.2 := rfl

@[simp]
theorem pair_valid :
    (pair first second).Valid values ↔ first.Valid values.1 ∧ second.Valid values.2 := Iff.rfl

/-- A fixed number of values. -/
def decodeMany (item : Codec Symbol Value) : ℕ → List Symbol → Option (List Value × List Symbol)
  | 0, symbols => some ([], symbols)
  | count + 1, symbols => do
    let (value, afterItem) ← item.decode symbols
    let (values, rest) ← decodeMany item count afterItem
    return (value :: values, rest)

theorem decodeMany_eq_some {count : ℕ} {values : List Value} :
    item.decodeMany count symbols = some (values, rest) ↔
      values.length = count ∧ (∀ value ∈ values, item.Valid value) ∧
        values.flatMap item.encode ++ rest = symbols := by
  induction count generalizing symbols values with
  | zero =>
    constructor
    · intro decoded
      obtain ⟨rfl, rfl⟩ := Prod.mk.inj (Option.some.inj decoded)
      simp
    · rintro ⟨none_, -, rfl⟩
      obtain rfl := List.length_eq_zero_iff.mp none_
      rfl
  | succ count ih =>
    rw [decodeMany]
    constructor
    · intro decoded
      simp only [Option.bind_eq_bind, Option.bind_eq_some_iff, Option.pure_def,
        Option.some.injEq, Prod.exists, Prod.mk.injEq] at decoded
      obtain ⟨value, afterItem, readItem, others, remaining, readOthers, rfl, rfl⟩ := decoded
      obtain ⟨valid, rfl⟩ := item.decode_eq_some.mp readItem
      obtain ⟨length, othersValid, rfl⟩ := ih.mp readOthers
      simp_all
    · rintro ⟨length, valid, rfl⟩
      cases values with
      | nil => simp at length
      | cons value others =>
        rw [List.flatMap_cons, List.append_assoc,
          item.decode_append (valid value List.mem_cons_self)]
        have readOthers : item.decodeMany count (others.flatMap item.encode ++ rest) =
            some (others, rest) := ih.mpr ⟨by simpa using length,
          fun other isOther => valid other (List.mem_cons_of_mem _ isOther), rfl⟩
        simp [readOthers]

/-- A writer that agrees with the codec on full items only, and whose other items are never
read in front of further items: what it wrote is read back if all items are full, and not at
all otherwise. -/
theorem decodeMany_of_misaligned {write : Value → List Symbol} {Full : Value → Prop}
    {values : List Value} (valid : ∀ value ∈ values, item.Valid value)
    (aligned : ∀ value ∈ values, Full value → write value = item.encode value)
    (misaligned : ∀ value ∈ values, ¬Full value → ∀ others, others ⊆ values →
      ∀ other rest, item.Valid other →
        item.encode other ++ rest ≠ write value ++ others.flatMap write)
    {result : List Value × List Symbol} :
    item.decodeMany values.length (values.flatMap write) = some result ↔
      (∀ value ∈ values, Full value) ∧ result = (values, []) := by
  constructor
  · obtain ⟨decoded, rest⟩ := result
    intro read
    obtain ⟨length, decodedValid, same⟩ := item.decodeMany_eq_some.mp read
    clear read
    induction values generalizing decoded with
    | nil =>
      obtain rfl := List.length_eq_zero_iff.mp length
      exact ⟨by simp, by simpa using same⟩
    | cons value values ih =>
      cases decoded with
      | nil => simp at length
      | cons first decoded =>
        rw [List.flatMap_cons, List.flatMap_cons, List.append_assoc] at same
        by_cases full : Full value
        · rw [aligned value List.mem_cons_self full] at same
          obtain ⟨rfl, sameRest⟩ := item.append_inj (decodedValid first List.mem_cons_self)
            (valid value List.mem_cons_self) same
          obtain ⟨allFull, isResult⟩ := ih
            (fun other member => valid other (List.mem_cons_of_mem _ member))
            (fun other member => aligned other (List.mem_cons_of_mem _ member))
            (fun other member notFull others subset => misaligned other
              (List.mem_cons_of_mem _ member) notFull others
              (List.subset_cons_of_subset _ subset))
            decoded (by simpa using length)
            (fun other member => decodedValid other (List.mem_cons_of_mem _ member)) sameRest
          obtain ⟨rfl, rfl⟩ := Prod.mk.inj isResult
          exact ⟨List.forall_mem_cons.mpr ⟨full, allFull⟩, rfl⟩
        · exact absurd same (misaligned value List.mem_cons_self full values
            (List.subset_cons_self _ _) first _ (decodedValid first List.mem_cons_self))
  · rintro ⟨full, rfl⟩
    refine item.decodeMany_eq_some.mpr ⟨rfl, valid, ?_⟩
    rw [List.append_nil]
    exact List.flatMap_congr fun value member => (aligned value member (full value member)).symm

def vec (count : Codec Symbol ℕ) (item : Codec Symbol Value) : Codec Symbol (List Value) where
  encode values := count.encode values.length ++ values.flatMap item.encode
  decode symbols := do
    let (length, afterCount) ← count.decode symbols
    item.decodeMany length afterCount
  Valid values := count.Valid values.length ∧ ∀ value ∈ values, item.Valid value
  decode_eq_some := by
    intro symbols values rest
    constructor
    · intro decoded
      simp only [Option.bind_eq_bind, Option.bind_eq_some_iff, Prod.exists] at decoded
      obtain ⟨length, afterCount, readCount, readItems⟩ := decoded
      obtain ⟨countValid, rfl⟩ := count.decode_eq_some.mp readCount
      obtain ⟨rfl, valid, rfl⟩ := item.decodeMany_eq_some.mp readItems
      exact ⟨⟨countValid, valid⟩, List.append_assoc _ _ _⟩
    · rintro ⟨⟨countValid, valid⟩, rfl⟩
      rw [List.append_assoc, count.decode_append countValid]
      exact item.decodeMany_eq_some.mpr ⟨rfl, valid, rfl⟩

def withEncode (codec : Codec Symbol Value) (encode : Value → List Symbol)
    (same : ∀ value, encode value = codec.encode value) : Codec Symbol Value where
  encode := encode
  decode := codec.decode
  Valid := codec.Valid
  decode_eq_some := by
    intro symbols value rest
    rw [same]
    exact codec.decode_eq_some

/-! ## Enumerations -/

def reads (codec : Codec Symbol Value) (build : Value → Other) (symbols : List Symbol) :
    Option (Other × List Symbol) :=
  (codec.decode symbols).map fun (value, rest) => (build value, rest)

theorem reads_eq_some (codec : Codec Symbol Value) {build : Value → Other} {other : Other} :
    codec.reads build symbols = some (other, rest) ↔
      ∃ value, build value = other ∧ codec.Valid value ∧ codec.encode value ++ rest = symbols := by
  rw [reads, Option.map_eq_some_iff]
  constructor
  · rintro ⟨⟨value, remaining⟩, decoded, built⟩
    obtain ⟨rfl, rfl⟩ := Prod.mk.inj built
    exact ⟨value, rfl, codec.decode_eq_some.mp decoded⟩
  · rintro ⟨value, rfl, valid, rfl⟩
    exact ⟨(value, rest), codec.decode_append valid rest, rfl⟩

structure Variant (Symbol Value : Type) where
  Fields : Type
  codec : Codec Symbol Fields
  build : Fields → Value

def enum (tag : Codec Symbol ℕ) (variants : List (Variant Symbol Value))
    (encode : Value → List Symbol) (Valid : Value → Prop)
    (encode_build : ∀ (index : ℕ) (variant : Variant Symbol Value),
      variants[index]? = some variant → ∀ fields,
        encode (variant.build fields) = tag.encode index ++ variant.codec.encode fields)
    (valid_build : ∀ (index : ℕ) (variant : Variant Symbol Value),
      variants[index]? = some variant → ∀ fields,
        Valid (variant.build fields) ↔ tag.Valid index ∧ variant.codec.Valid fields)
    (covered : ∀ value, ∃ (index : ℕ) (variant : Variant Symbol Value),
      variants[index]? = some variant ∧ ∃ fields, variant.build fields = value) :
    Codec Symbol Value where
  encode := encode
  decode symbols :=
    (tag.decode symbols).bind fun (index, afterTag) =>
      variants[index]?.bind fun variant => variant.codec.reads variant.build afterTag
  Valid := Valid
  decode_eq_some := by
    intro symbols value rest
    constructor
    · intro decoded
      simp only [Option.bind_eq_some_iff, Prod.exists] at decoded
      obtain ⟨index, afterTag, readTag, variant, isVariant, readFields⟩ := decoded
      obtain ⟨tagValid, rfl⟩ := tag.decode_eq_some.mp readTag
      obtain ⟨fields, rfl, fieldsValid, rfl⟩ := variant.codec.reads_eq_some.mp readFields
      rw [encode_build index variant isVariant, List.append_assoc]
      exact ⟨(valid_build index variant isVariant fields).mpr ⟨tagValid, fieldsValid⟩, rfl⟩
    · rintro ⟨valid, rfl⟩
      obtain ⟨index, variant, isVariant, fields, rfl⟩ := covered value
      obtain ⟨tagValid, fieldsValid⟩ := (valid_build index variant isVariant fields).mp valid
      rw [encode_build index variant isVariant, List.append_assoc, tag.decode_append tagValid]
      simp only [Option.bind_some, isVariant]
      exact variant.codec.reads_eq_some.mpr ⟨fields, rfl, fieldsValid, rfl⟩

end Codec
