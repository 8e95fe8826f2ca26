import ReturnAudit.Assembly.PoolBuilder
import Mathlib

/-!
# Readers that take given bytes

A reader takes some bytes when it reads them off the front of every text that starts with them,
gives their value and leaves the rest. Readers that are put together take the bytes of their parts
one after another. Numbers are taken from the two or four bytes that they are written as.
-/

namespace ReturnAudit.ClassFile

open Assembly (beShort beWord)

variable {α β : Type} {o : Nat}

/-- At offset `o` the reader takes exactly the bytes `b`, whatever follows, and gives `v`. -/
def Reads (o : Nat) (r : Reader α) (b : Bytes) (v : α) : Prop :=
  ∀ rest, r ⟨o, b ++ rest⟩ = .ok (v, ⟨o + b.length, rest⟩)

/-- Whether bytes are taken one by one as the values of a list, each by a reader that may be told
any position. -/
abbrev ReadsEach (item : Nat → Reader α) (bs : List Bytes) (vs : List α) : Prop :=
  List.Forall₂ (fun b v => ∀ i o, Reads o (item i) b v) bs vs

/-- Two bytes, the higher first, make up the low sixteen bits of a number. -/
private theorem short_eq (n : Nat) :
    (n / 256).toUInt8.toUInt16 <<< 8 ||| n.toUInt8.toUInt16 = n.toUInt16 := by
  refine UInt16.toNat_inj.mp ?_
  simp only [UInt16.toNat_or, UInt16.toNat_shiftLeft, UInt8.toNat_toUInt16, Nat.toUInt8,
    Nat.toUInt16, UInt8.toNat_ofNat', UInt16.toNat_ofNat', UInt16.reduceToNat, Nat.reduceMod,
    Nat.shiftLeft_eq]
  have hhigh : n / 256 % 2 ^ 8 * 2 ^ 8 % 2 ^ 16 = 2 ^ 8 * (n / 256 % 2 ^ 8) := by omega
  rw [hhigh, ← Nat.two_pow_add_eq_or_of_lt (Nat.mod_lt n (by decide))]
  omega

/-- Four bytes, the highest first, make up the low thirty-two bits of a number. -/
private theorem word_eq (n : Nat) :
    (n / 65536 / 256).toUInt8.toUInt32 <<< 24 ||| (n / 65536).toUInt8.toUInt32 <<< 16 |||
      (n / 256).toUInt8.toUInt32 <<< 8 ||| n.toUInt8.toUInt32 = n.toUInt32 := by
  refine UInt32.toNat_inj.mp ?_
  simp only [UInt32.toNat_or, UInt32.toNat_shiftLeft, UInt8.toNat_toUInt32, Nat.toUInt8,
    Nat.toUInt32, UInt8.toNat_ofNat', UInt32.toNat_ofNat', UInt32.reduceToNat, Nat.reduceMod,
    Nat.shiftLeft_eq, Nat.reducePow]
  -- no byte is shifted out
  have h₁ : n / 65536 / 256 % 256 * 16777216 % 4294967296 = 2 ^ 24 * (n / 65536 / 256 % 256) := by
    rw [Nat.mod_eq_of_lt (by omega)]
    omega
  have h₂ : n / 65536 % 256 * 65536 % 4294967296 = 2 ^ 16 * (n / 65536 % 256) := by
    rw [Nat.mod_eq_of_lt (by omega)]
    omega
  have h₃ : n / 256 % 256 * 256 % 4294967296 = 2 ^ 8 * (n / 256 % 256) := by
    rw [Nat.mod_eq_of_lt (by omega)]
    omega
  -- no two bytes overlap
  have h₁₂ : 2 ^ 24 * (n / 65536 / 256 % 256) ||| 2 ^ 16 * (n / 65536 % 256) =
      2 ^ 16 * (n / 65536 % 65536) := by
    rw [← Nat.two_pow_add_eq_or_of_lt (by omega)]
    omega
  have h₁₃ : 2 ^ 16 * (n / 65536 % 65536) ||| 2 ^ 8 * (n / 256 % 256) =
      2 ^ 8 * (n / 256 % 16777216) := by
    rw [← Nat.two_pow_add_eq_or_of_lt (by omega)]
    omega
  rw [h₁, h₂, h₃, h₁₂, h₁₃, ← Nat.two_pow_add_eq_or_of_lt (by omega)]
  omega

/-- A number that fits two bytes is kept in them. -/
theorem toNat_toUInt16 {n : Nat} (h : n ≤ 65535) : n.toUInt16.toNat = n := by
  rw [Nat.toUInt16, UInt16.toNat_ofNat', Nat.mod_eq_of_lt (Nat.lt_succ_of_le h)]

/-- A number that fits four bytes is kept in them. -/
theorem toNat_toUInt32 {n : Nat} (h : n < 2 ^ 32) : n.toUInt32.toNat = n := by
  rw [Nat.toUInt32, UInt32.toNat_ofNat', Nat.mod_eq_of_lt h]

private theorem splitExactly_append (b rest : Bytes) :
    Bytes.splitExactly b.length (b ++ rest) = some (b, rest) := by
  induction b with
  | nil => rfl
  | cons x b ih =>
    simp only [List.length_cons, List.cons_append, Bytes.splitExactly, ih, Option.map_some]

namespace Reads

/-- A value takes no bytes. -/
theorem pure (v : α) : Reads o (Pure.pure v : Reader α) [] v :=
  fun _ => rfl

/-- Two readers in a row. -/
theorem bind {r : Reader α} {f : α → Reader β} {b b' : Bytes} {v : α} {w : β} (h : Reads o r b v)
    (h' : Reads (o + b.length) (f v) b' w) : Reads o (r >>= f) (b ++ b') w := by
  intro rest
  have hf := h' rest
  simp only [Bind.bind, StateT.bind, Except.bind, List.append_assoc, h (b' ++ rest)]
  rw [hf, List.length_append, Nat.add_assoc]

/-- A reader that reads nothing before another one. -/
theorem bind_nil {r : Reader α} {f : α → Reader β} {b : Bytes} {v : α} {w : β}
    (h : Reads o r [] v) (h' : Reads o (f v) b w) : Reads o (r >>= f) b w :=
  bind h h'

/-- A reader that reads nothing after another one. -/
theorem bind_last {r : Reader α} {f : α → Reader β} {b : Bytes} {v : α} {w : β}
    (h : Reads o r b v) (h' : Reads (o + b.length) (f v) [] w) : Reads o (r >>= f) b w := by
  have hbind := bind h h'
  rwa [List.append_nil] at hbind

/-- A reader whose value is only passed on. -/
theorem bind_pure {r : Reader α} {f : α → β} {b : Bytes} {v : α} (h : Reads o r b v) :
    Reads o (r >>= fun a => Pure.pure (f a)) b (f v) :=
  h.bind_last (pure (f v))

/-- What is read with another value. -/
theorem map {r : Reader α} (f : α → β) {b : Bytes} {v : α} (h : Reads o r b v) :
    Reads o (f <$> r) b (f v) := by
  rw [map_eq_pure_bind]
  exact bind_pure h

/-- The place that faults are told at makes no difference to what is read. -/
theorem within (place : Place) {r : Reader α} {b : Bytes} {v : α} (h : Reads o r b v) :
    Reads o (Reader.within place r) b v := by
  intro rest
  rw [Reader.within, h rest]
  rfl

/-- A result that does not depend on the bytes takes none. -/
theorem look {result : Except ReadError α} {v : α} (h : result = .ok v) :
    Reads o (Reader.look result) [] v := by
  subst h
  exact fun _ => rfl

/-- A look-up whose fault would be seen from a place. -/
theorem look_locate {result : Except ReadError α} {v : α} (place : Place) (h : result = .ok v) :
    Reads o (Reader.look (locate place result)) [] v := by
  subst h
  exact fun _ => rfl

/-- A byte is read. -/
theorem u1 (v : UInt8) : Reads o Reader.u1 [v] v :=
  fun _ => rfl

/-- Two bytes hold the low sixteen bits of a number. -/
theorem u2 (n : Nat) : Reads o Reader.u2 (beShort n) n.toUInt16 := by
  intro rest
  simp only [beShort, Reader.u2, List.cons_append, List.nil_append, short_eq, List.length_cons,
    List.length_nil]

/-- The bytes of a short are read as this short. -/
theorem u2_toNat (v : UInt16) : Reads o Reader.u2 (beShort v.toNat) v := by
  have hv : v.toNat.toUInt16 = v := UInt16.ofNat_toNat
  have h := u2 (o := o) v.toNat
  rwa [hv] at h

/-- Four bytes hold the low thirty-two bits of a number. -/
theorem u4 (n : Nat) : Reads o Reader.u4 (beWord n) n.toUInt32 := by
  intro rest
  simp only [beWord, beShort, Reader.u4, List.cons_append, List.nil_append, word_eq,
    List.length_cons, List.length_nil]

/-- Bytes are taken. -/
theorem take (b : Bytes) : Reads o (Reader.take b.length) b b := by
  intro rest
  simp only [Reader.take, splitExactly_append]

/-- Bytes are skipped. -/
theorem skip (b : Bytes) : Reads o (Reader.skip b.length) b () := by
  intro rest
  simp only [Reader.skip, splitExactly_append]

/-- A list of readers in a row, each told its position. -/
theorem manyFrom {item : Nat → Reader α} {bs : List Bytes} {vs : List α} (first : Nat)
    (h : ReadsEach item bs vs) :
    Reads o (Reader.manyFrom item first bs.length) bs.flatten vs := by
  induction h generalizing first o with
  | nil => exact pure []
  | cons hb _ ih =>
    simp only [List.length_cons, List.flatten_cons, Reader.manyFrom]
    exact bind (hb first o) (bind_pure (ih (first + 1)))

/-- A counted list is read item by item. -/
theorem many {item : Nat → Reader α} {bs : List Bytes} {vs : List α}
    (h : ReadsEach item bs vs) :
    Reads o (Reader.many bs.length item) bs.flatten vs :=
  manyFrom 0 h

/-- A count and as many readers in a row. -/
theorem counted {count : Reader UInt16} {item : Nat → Reader α} {bs : List Bytes} {vs : List α}
    (hcount : Reads o count (beShort bs.length) bs.length.toUInt16) (hlength : bs.length ≤ 65535)
    (h : ReadsEach item bs vs) :
    Reads o (count >>= fun n => Reader.many n.toNat item) (beShort bs.length ++ bs.flatten) vs := by
  refine hcount.bind ?_
  rw [toNat_toUInt16 hlength]
  exact many h

/-- A count and as many readers in a row, whose values are only passed on. -/
theorem counted_pure {count : Reader UInt16} {item : Nat → Reader α} {bs : List Bytes}
    {vs : List α} (f : List α → β)
    (hcount : Reads o count (beShort bs.length) bs.length.toUInt16) (hlength : bs.length ≤ 65535)
    (h : ReadsEach item bs vs) :
    Reads o (do let n ← count; let as ← Reader.many n.toNat item; Pure.pure (f as))
      (beShort bs.length ++ bs.flatten) (f vs) := by
  refine hcount.bind ?_
  rw [toNat_toUInt16 hlength]
  exact (many h).bind_pure

end Reads

/-- A reader that takes a whole text runs on it. -/
theorem run_eq_of_reads {r : Reader α} {b : Bytes} {v : α} (h : Reads 0 r b v) :
    r.run b = .ok v := by
  have hb := h []
  rw [List.append_nil] at hb
  rw [Reader.run, Cursor.start, hb]
  rfl

end ReturnAudit.ClassFile
