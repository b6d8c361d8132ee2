import Doli.Lib.Bytes
import Mathlib.Data.List.Basic

/-!
# Self-delimiting codecs

A codec reads back what it wrote in front of any bytes, so two records of legal
values agree on every field as soon as their bytes do.  Products, counted lists,
options and tagged variants of codecs are codecs.  An encoding separates two values
when no bytes after them make their encodings agree; a list of values can be read off
the concatenation of its encodings as soon as the encoding separates the two values in
which it first differs from another list.
-/

namespace Doli.Lib

structure Codec (α : Type) where
  encode : α → Bytes
  decode : Bytes → Option (α × Bytes)
  /-- The values that fit the wire. -/
  Legal : α → Prop
  roundtrip : ∀ {value}, Legal value →
    ∀ rest, decode (encode value ++ rest) = some (value, rest)
  legal_of_decode : ∀ {bytes value rest}, decode bytes = some (value, rest) → Legal value

namespace Codec

variable {α β : Type}

theorem encode_append_inj (codec : Codec α) {first second : α} {left right : Bytes}
    (hfirst : codec.Legal first) (hsecond : codec.Legal second)
    (hbytes : codec.encode first ++ left = codec.encode second ++ right) :
    first = second ∧ left = right := by
  have hread := codec.roundtrip hfirst left
  rw [hbytes, codec.roundtrip hsecond right] at hread
  obtain ⟨hvalue, hrest⟩ := Prod.mk.inj (Option.some.inj hread)
  exact ⟨hvalue.symm, hrest.symm⟩

theorem encode_inj (codec : Codec α) {first second : α} (hfirst : codec.Legal first)
    (hsecond : codec.Legal second) (hbytes : codec.encode first = codec.encode second) :
    first = second :=
  (codec.encode_append_inj hfirst hsecond (congrArg (· ++ []) hbytes)).1

/-! ## Fields -/

theorem leNat_take_lt {width : Nat} {bytes : Bytes} (hwidth : width ≤ bytes.length) :
    leNat (bytes.take width) < 256 ^ width := by
  have hlt := leNat_lt (bytes.take width)
  rwa [List.length_take_of_le hwidth] at hlt

/-- A fixed-width little-endian number. -/
def word (width : Nat) : Codec Nat where
  encode value := leBytes width value
  decode bytes :=
    if bytes.length < width then none else some (leNat (bytes.take width), bytes.drop width)
  Legal value := value < 256 ^ width
  roundtrip hlegal rest := by
    rw [if_neg (by simp), List.take_left' (leBytes_length _ _),
      List.drop_left' (leBytes_length _ _), leNat_leBytes_of_lt hlegal]
  legal_of_decode hread := by
    split at hread
    case isTrue => simp at hread
    case isFalse hlong =>
      obtain ⟨rfl, -⟩ := Prod.mk.inj (Option.some.inj hread)
      exact leNat_take_lt (Nat.not_lt.mp hlong)

/-- A fixed number of bytes. -/
def raw (width : Nat) : Codec Bytes where
  encode value := value
  decode bytes :=
    if bytes.length < width then none else some (bytes.take width, bytes.drop width)
  Legal value := value.length = width
  roundtrip hlegal rest := by
    rw [if_neg (by simp [hlegal]), List.take_left' hlegal, List.drop_left' hlegal]
  legal_of_decode hread := by
    split at hread
    case isTrue => simp at hread
    case isFalse hlong =>
      obtain ⟨rfl, -⟩ := Prod.mk.inj (Option.some.inj hread)
      exact List.length_take_of_le (Nat.not_lt.mp hlong)

def pair (left : Codec α) (right : Codec β) : Codec (α × β) where
  encode value := left.encode value.1 ++ right.encode value.2
  decode bytes := (left.decode bytes).bind fun first =>
    (right.decode first.2).map fun second => ((first.1, second.1), second.2)
  Legal value := left.Legal value.1 ∧ right.Legal value.2
  roundtrip hlegal rest := by
    rw [List.append_assoc, left.roundtrip hlegal.1, Option.bind_some,
      right.roundtrip hlegal.2]
    rfl
  legal_of_decode hread := by
    rw [Option.bind_eq_some_iff] at hread
    obtain ⟨first, hfirst, hread⟩ := hread
    rw [Option.map_eq_some_iff] at hread
    obtain ⟨second, hsecond, hvalue⟩ := hread
    obtain ⟨rfl, rfl⟩ := Prod.mk.inj hvalue
    exact ⟨left.legal_of_decode hfirst, right.legal_of_decode hsecond⟩

theorem pair_legal {left : Codec α} {right : Codec β} {value : α × β} :
    (left.pair right).Legal value ↔ left.Legal value.1 ∧ right.Legal value.2 := Iff.rfl

/-- A value given by its parts: `get` undoes `mk`. -/
def wrap (parts : Codec β) (mk : β → α) (get : α → Option β)
    (hget : ∀ value, get (mk value) = some value) : Codec α where
  encode value := (get value).elim [] parts.encode
  decode bytes := (parts.decode bytes).map fun read => (mk read.1, read.2)
  Legal value := ∃ part, parts.Legal part ∧ value = mk part
  roundtrip hlegal rest := by
    obtain ⟨part, hpart, rfl⟩ := hlegal
    rw [hget, Option.elim_some, parts.roundtrip hpart]
    rfl
  legal_of_decode hread := by
    rw [Option.map_eq_some_iff] at hread
    obtain ⟨read, hread, hvalue⟩ := hread
    obtain ⟨rfl, rfl⟩ := Prod.mk.inj hvalue
    exact ⟨read.1, parts.legal_of_decode hread, rfl⟩

theorem wrap_legal_iff {parts : Codec β} {mk : β → α} {fields : α → β}
    {hget : ∀ part, some (fields (mk part)) = some part} {value : α}
    (hmk : mk (fields value) = value) :
    (parts.wrap mk (fun value => some (fields value)) hget).Legal value ↔
      parts.Legal (fields value) := by
  constructor
  · rintro ⟨part, hpart, rfl⟩
    rwa [Option.some.inj (hget part)]
  · exact fun hlegal => ⟨fields value, hlegal, hmk.symm⟩

/-- A value that a check takes from what was read. -/
def refine (parts : Codec β) (parse : β → Option α) (render : α → β) (Legal : α → Prop)
    (hrender : ∀ value, Legal value →
      parts.Legal (render value) ∧ parse (render value) = some value)
    (hparse : ∀ part value, parse part = some value → Legal value) : Codec α where
  encode value := parts.encode (render value)
  decode bytes := (parts.decode bytes).bind fun read =>
    (parse read.1).map fun value => (value, read.2)
  Legal := Legal
  roundtrip hlegal rest := by
    rw [parts.roundtrip (hrender _ hlegal).1, Option.bind_some, (hrender _ hlegal).2]
    rfl
  legal_of_decode hread := by
    rw [Option.bind_eq_some_iff] at hread
    obtain ⟨read, -, hread⟩ := hread
    rw [Option.map_eq_some_iff] at hread
    obtain ⟨value, hvalue, hpair⟩ := hread
    obtain ⟨rfl, -⟩ := Prod.mk.inj hpair
    exact hparse _ _ hvalue

/-! ## Sequences -/

def decodeMany (codec : Codec α) : Nat → Bytes → Option (List α × Bytes)
  | 0, bytes => some ([], bytes)
  | count + 1, bytes => (codec.decode bytes).bind fun first =>
      (decodeMany codec count first.2).map fun rest => (first.1 :: rest.1, rest.2)

def encodeMany (codec : Codec α) (values : List α) : Bytes :=
  (values.map codec.encode).flatten

theorem decodeMany_encodeMany (codec : Codec α) {values : List α}
    (hlegal : ∀ value ∈ values, codec.Legal value) (rest : Bytes) :
    codec.decodeMany values.length (codec.encodeMany values ++ rest) = some (values, rest) := by
  induction values with
  | nil => rfl
  | cons value values ih =>
      rw [encodeMany, List.map_cons, List.flatten_cons, List.append_assoc, List.length_cons,
        decodeMany, codec.roundtrip (hlegal value List.mem_cons_self), Option.bind_some]
      change (codec.decodeMany values.length (codec.encodeMany values ++ rest)).map _ = _
      rw [ih fun other hother => hlegal other (List.mem_cons_of_mem _ hother)]
      rfl

theorem legal_of_decodeMany (codec : Codec α) {count : Nat} {bytes rest : Bytes}
    {values : List α}
    (hread : codec.decodeMany count bytes = some (values, rest)) :
    values.length = count ∧ ∀ value ∈ values, codec.Legal value := by
  induction count generalizing bytes rest values with
  | zero =>
      obtain ⟨rfl, -⟩ := Prod.mk.inj (Option.some.inj hread)
      simp
  | succ count ih =>
      rw [decodeMany, Option.bind_eq_some_iff] at hread
      obtain ⟨first, hfirst, hread⟩ := hread
      rw [Option.map_eq_some_iff] at hread
      obtain ⟨others, hothers, hvalue⟩ := hread
      obtain ⟨rfl, -⟩ := Prod.mk.inj hvalue
      obtain ⟨hlength, hlegal⟩ := ih hothers
      refine ⟨by rw [List.length_cons, hlength], ?_⟩
      rw [List.forall_mem_cons]
      exact ⟨codec.legal_of_decode hfirst, hlegal⟩

/-- A count of eight bytes, then the values. -/
def list (codec : Codec α) : Codec (List α) where
  encode values := leBytes 8 values.length ++ codec.encodeMany values
  decode bytes := ((word 8).decode bytes).bind fun read => codec.decodeMany read.1 read.2
  Legal values := values.length < 256 ^ 8 ∧ ∀ value ∈ values, codec.Legal value
  roundtrip hlegal rest := by
    have hcount := (word 8).roundtrip hlegal.1
    rw [List.append_assoc]
    change (((word 8).decode ((word 8).encode _ ++ _)).bind _) = _
    rw [hcount, Option.bind_some]
    exact codec.decodeMany_encodeMany hlegal.2 rest
  legal_of_decode hread := by
    rw [Option.bind_eq_some_iff] at hread
    obtain ⟨read, hcount, hread⟩ := hread
    obtain ⟨hlength, hlegal⟩ := codec.legal_of_decodeMany hread
    have hlt : read.1 < 256 ^ 8 := (word 8).legal_of_decode hcount
    exact ⟨by rwa [hlength], hlegal⟩

/-- A count of eight bytes, then that many bytes. -/
def bytes : Codec Bytes where
  encode value := leBytes 8 value.length ++ value
  decode bytes := ((word 8).decode bytes).bind fun read => (raw read.1).decode read.2
  Legal value := value.length < 256 ^ 8
  roundtrip hlegal rest := by
    have hcount := (word 8).roundtrip hlegal
    rw [List.append_assoc]
    change (((word 8).decode ((word 8).encode _ ++ _)).bind _) = _
    rw [hcount, Option.bind_some]
    exact (raw _).roundtrip rfl rest
  legal_of_decode hread := by
    rw [Option.bind_eq_some_iff] at hread
    obtain ⟨read, hcount, hread⟩ := hread
    have hlength : List.length _ = read.1 := (raw read.1).legal_of_decode hread
    have hlt : read.1 < 256 ^ 8 := (word 8).legal_of_decode hcount
    rwa [hlength]

/-! ## Alternatives -/

/-- A tag, then the value as the codec of its tag writes it. -/
def variant (width count : Nat) (tagOf : α → Nat) (case : Nat → Codec α)
    (hcount : count ≤ 256 ^ width)
    (htag : ∀ tag < count, ∀ value, (case tag).Legal value → tagOf value = tag) :
    Codec α where
  encode value := leBytes width (tagOf value) ++ (case (tagOf value)).encode value
  decode bytes := ((word width).decode bytes).bind fun read =>
    if read.1 < count then (case read.1).decode read.2 else none
  Legal value := tagOf value < count ∧ (case (tagOf value)).Legal value
  roundtrip hlegal rest := by
    have hread := @Codec.roundtrip _ (word width) _ (hlegal.1.trans_le hcount)
    rw [List.append_assoc]
    change (((word width).decode ((word width).encode _ ++ _)).bind _) = _
    rw [hread, Option.bind_some, if_pos hlegal.1]
    exact (case _).roundtrip hlegal.2 rest
  legal_of_decode hread := by
    rw [Option.bind_eq_some_iff] at hread
    obtain ⟨read, -, hread⟩ := hread
    split at hread
    case isTrue hlt =>
      have hlegal := (case read.1).legal_of_decode hread
      have hsame := htag read.1 hlt _ hlegal
      rw [hsame]
      exact ⟨hlt, hlegal⟩
    case isFalse => simp at hread

/-- No bytes for the one value. -/
def unit : Codec Unit where
  encode _ := []
  decode bytes := some ((), bytes)
  Legal _ := True
  roundtrip _ _ := rfl
  legal_of_decode _ := trivial

theorem some_unit (value : Unit) : some () = some value := rfl

/-- A byte that is zero or one. -/
def bool : Codec Bool :=
  variant 1 2 Bool.toNat
    (fun tag => unit.wrap (fun _ => tag = 1) (fun _ => some ()) fun _ => rfl)
    (by decide)
    (by
      rintro tag htag value ⟨-, -, rfl⟩
      rcases Nat.lt_succ_iff_lt_or_eq.mp htag with hzero | rfl
      · rw [Nat.lt_one_iff.mp hzero]
        rfl
      · rfl)

/-- A byte that says whether the value follows. -/
def option (codec : Codec α) : Codec (Option α) :=
  variant 1 2 (fun value => value.isSome.toNat)
    (fun tag => if tag = 0 then unit.wrap (fun _ => none) (fun _ => some ()) fun _ => rfl
      else codec.wrap some id fun _ => rfl)
    (by decide)
    (by
      intro tag htag value hlegal
      rcases Nat.lt_succ_iff_lt_or_eq.mp htag with hzero | rfl
      · obtain rfl := Nat.lt_one_iff.mp hzero
        obtain ⟨-, -, rfl⟩ := hlegal
        rfl
      · obtain ⟨part, -, rfl⟩ := hlegal
        rfl)

/-- The value behind its own length, which the reader skips. -/
def prefixed (width : Nat) (codec : Codec α) : Codec α where
  encode value := leBytes width (codec.encode value).length ++ codec.encode value
  decode bytes := if bytes.length < width then none else codec.decode (bytes.drop width)
  Legal := codec.Legal
  roundtrip hlegal rest := by
    rw [List.append_assoc, if_neg (by simp), List.drop_left' (leBytes_length _ _)]
    exact codec.roundtrip hlegal rest
  legal_of_decode hread := by
    split at hread
    case isTrue => simp at hread
    case isFalse => exact codec.legal_of_decode hread

end Codec

/-! ## Separated encodings -/

section

variable {α β : Type} {encode : α → List β}

def Separates (encode : α → List β) (a b : α) : Prop :=
  ∀ s t, encode a ++ s = encode b ++ t → a = b

theorem separates_of_length {a b : α} (hlength : (encode a).length = (encode b).length)
    (hinj : encode a = encode b → a = b) : Separates encode a b := by
  intro s t h
  exact hinj (List.append_inj_left h hlength)

/-- The first two items in which the lists differ are separated. -/
def SeparatesLists (encode : α → List β) : List α → List α → Prop
  | a :: as, b :: bs => Separates encode a b ∧ (a = b → SeparatesLists encode as bs)
  | _, _ => True

theorem separatesLists_of_forall {first second : List α}
    (hsep : ∀ a ∈ first, ∀ b ∈ second, Separates encode a b) :
    SeparatesLists encode first second := by
  induction first generalizing second with
  | nil => trivial
  | cons a as ih =>
      cases second with
      | nil => trivial
      | cons b bs =>
          have hrest : SeparatesLists encode as bs := ih fun x hx y hy =>
            hsep x (List.mem_cons_of_mem _ hx) y (List.mem_cons_of_mem _ hy)
          exact ⟨hsep a List.mem_cons_self b List.mem_cons_self, fun _ => hrest⟩

theorem eq_of_flatMap_append {first second : List α} {s t : List β}
    (hlength : first.length = second.length) (hsep : SeparatesLists encode first second)
    (h : first.flatMap encode ++ s = second.flatMap encode ++ t) :
    first = second ∧ s = t := by
  induction first generalizing second with
  | nil =>
      have hnil : second = [] := List.eq_nil_of_length_eq_zero hlength.symm
      rw [hnil] at h
      exact ⟨hnil.symm, h⟩
  | cons a as ih =>
      cases second with
      | nil => simp at hlength
      | cons b bs =>
          rw [List.flatMap_cons, List.flatMap_cons, List.append_assoc, List.append_assoc] at h
          have hhead : a = b := hsep.1 _ _ h
          have htail : as.flatMap encode ++ s = bs.flatMap encode ++ t := by
            rw [hhead] at h
            exact List.append_cancel_left h
          have hrest := ih (Nat.succ.inj hlength) (hsep.2 hhead) htail
          exact ⟨by rw [hhead, hrest.1], hrest.2⟩

end

end Doli.Lib
