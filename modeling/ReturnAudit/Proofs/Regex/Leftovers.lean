import ReturnAudit.Proofs.Regex.Growth
import ReturnAudit.Proofs.Text.Cuts
import Mathlib.Tactic.SplitIfs

/-!
# What readers leave

Every reader of a part of an expression leaves an end of its text, and at least one byte less than
there was. So there are never more parts than bytes, and reading stops at the end of the text.
-/

namespace ReturnAudit.Regex

variable {α β ε : Type}

/-- Whether a reading that succeeds leaves an end of a text. -/
def Leaves (s : Bytes) (x : Except ε (α × Bytes)) : Prop :=
  ∀ a, x = .ok a → a.2 <:+ s

namespace Leaves

variable {s t : Bytes} {x y : Except ε (α × Bytes)}

/-- A reading that succeeds leaves what it gives as the rest. -/
theorem ok {a : α × Bytes} (h : a.2 <:+ s) : Leaves s (.ok a : Except ε (α × Bytes)) := by
  rintro _ ⟨⟩
  exact h

/-- A reading that fails leaves any text. -/
theorem error (e : ε) : Leaves s (.error e : Except ε (α × Bytes)) := by
  rintro _ ⟨⟩

/-- What leaves an end of a text leaves an end of every text that ends with it. -/
theorem mono (h : Leaves s x) (hs : s <:+ t) : Leaves t x :=
  fun a ha => (h a ha).trans hs

/-- Two readings one after the other leave what the second one leaves. -/
theorem bind {f : α × Bytes → Except ε (β × Bytes)} (h : Leaves s x)
    (h' : ∀ a, a.2 <:+ s → Leaves t (f a)) : Leaves t (x >>= f) := by
  intro b hb
  obtain ⟨a, ha, hfa⟩ := of_bind hb
  exact h' a (h a ha) b hfa

/-- A choice of readings leaves what each of them leaves where it is chosen. -/
theorem ite {c : Prop} [Decidable c] (h : c → Leaves s x) (h' : ¬ c → Leaves s y) :
    Leaves s (if c then x else y) :=
  iteInduction (motive := Leaves s) h h'

end Leaves

/-- What follows a byte of a text is an end of it without its first byte. -/
theorem suffix_tail {b : UInt8} {s rest : Bytes} (h : b :: rest <:+ s) : rest <:+ s.tail := by
  obtain ⟨before, rfl⟩ := h
  cases before with
  | nil => exact List.suffix_refl rest
  | cons c before => exact (List.suffix_cons b rest).trans (List.suffix_append before _)

/-- What follows a separator is an end of the text behind its first byte. -/
theorem suffix_of_cut {sep : UInt8} {s before after : Bytes}
    (h : Bytes.cut sep s = some (before, after)) : after <:+ s.tail := by
  obtain ⟨rfl, -⟩ := Bytes.cut_eq_some_iff.mp h
  exact suffix_tail (List.suffix_append before _)

/-- Reading a character leaves an end of what follows its first byte. -/
theorem leaves_readChar (b : UInt8) (rest : Bytes) : Leaves rest (readChar (b :: rest)) :=
  .ite (fun _ => .ok (List.drop_suffix _ _)) fun _ => .error _

/-- Reading a code point leaves an end of what follows its first byte. -/
theorem leaves_readPoint (b : UInt8) (rest : Bytes) : Leaves rest (readPoint (b :: rest)) :=
  fun a ha => leaves_readChar b rest a (of_mapError ha)

/-- Octal digits leave an end of the text. -/
theorem readOctal_suffix (n value : Nat) (s : Bytes) : (readOctal n value s).2 <:+ s := by
  induction n generalizing value s with
  | zero => exact List.suffix_refl s
  | succ n ih =>
    cases s with
    | nil => exact List.suffix_refl []
    | cons b s =>
      rw [readOctal]
      cases octalDigit? b with
      | none => exact List.suffix_refl _
      | some digit => exact (ih _ s).trans (List.suffix_cons b s)

/-- Digits in braces leave an end of the text. -/
theorem leaves_readBraced (n : Nat) (value : Option Nat) (s : Bytes) :
    Leaves s (readBraced n value s) := by
  induction n generalizing value s with
  | zero => cases s <;> exact .error _
  | succ n ih =>
    cases s with
    | nil => exact .error _
    | cons b s =>
      refine (leaves_readPoint b s).bind fun ⟨point, rest⟩ hrest => ?_
      have hrest : rest <:+ b :: s := hrest.trans (List.suffix_cons b s)
      refine .ite (fun _ => ?_) fun _ => ?_
      · cases value with
        | none => exact .error _
        | some value => exact .ok hrest
      · cases hexDigit? point with
        | none => exact .error _
        | some digit => exact .ite (fun _ => .error _) fun _ => (ih _ rest).mono hrest

/-- Hexadecimal digits leave an end of the text. -/
theorem leaves_readHex (s : Bytes) : Leaves s (readHex s) := by
  cases s with
  | nil => exact .error _
  | cons b s =>
    refine (leaves_readPoint b s).bind fun ⟨first, rest⟩ hrest => ?_
    have hrest : rest <:+ b :: s := hrest.trans (List.suffix_cons b s)
    refine .ite (fun _ => (leaves_readBraced _ _ _).mono hrest) fun _ => ?_
    have hsecond : Leaves rest (readPoint rest) := by
      cases rest with
      | nil => exact .ok (List.suffix_refl [])
      | cons c rest => exact (leaves_readPoint c rest).mono (List.suffix_cons c rest)
    refine hsecond.bind fun ⟨second, rest'⟩ hrest' => ?_
    dsimp only
    cases hexDigit? first with
    | none => exact .error _
    | some high =>
      cases hexDigit? second with
      | none => exact .error _
      | some low => exact .ok (hrest'.trans hrest)

/-- Reading an escaped character leaves an end of what follows its first byte. -/
theorem leaves_readEscaped (b : UInt8) (rest : Bytes) : Leaves rest (readEscaped (b :: rest)) := by
  refine (leaves_readPoint b rest).bind fun ⟨point, rest'⟩ hrest => ?_
  refine .ite (fun _ => .ok ((readOctal_suffix _ _ _).trans hrest)) fun _ => ?_
  refine .ite (fun _ => (leaves_readHex _).mono hrest) fun _ => ?_
  cases escapedControl? point with
  | some control => exact .ok hrest
  | none => exact .ite (fun _ => .ok hrest) fun _ => .error _

/-- An escape is a backslash and an escaped character. -/
theorem readEscaped_of_readEscape {s : Bytes} {a : Nat × Bytes} (h : readEscape s = .ok a) :
    readEscaped (s.drop 1) = .ok a := by
  unfold readEscape at h
  split at h
  case h_1 => cases h
  case h_2 =>
    split at h
    case h_1 heq =>
      cases h
      exact heq
    case h_2 => cases h
    case h_3 => cases h

/-- An escape leaves an end of what follows the backslash. -/
theorem leaves_readEscape (s : Bytes) : Leaves s.tail (readEscape s) := by
  intro a ha
  have hread := readEscaped_of_readEscape ha
  match s with
  | [] | [_] => cases ha
  | b :: c :: rest => exact (leaves_readEscaped c rest a hread).trans (List.suffix_cons c rest)

/-- An escape for a class leaves an end of what follows the backslash. -/
theorem suffix_of_classEscape? {ignoreCase : Bool} {s : Bytes} {a : CharSet × Bytes}
    (h : classEscape? ignoreCase s = some a) : a.2 <:+ s.tail := by
  unfold classEscape? at h
  split at h
  case h_1 letter rest =>
    dsimp only at h
    split_ifs at h <;>
    · cases h
      exact List.suffix_cons letter rest
  case h_2 => cases h

/-- Looking a property up leaves what follows its name. -/
theorem leaves_namedProperty (ignoreCase negated : Bool) (excerpt name rest : Bytes) :
    Leaves rest (namedProperty ignoreCase negated excerpt name rest) := by
  unfold namedProperty
  split
  cases property? _ with
  | none => exact .error _
  | some set => exact .ok (List.suffix_refl rest)

/-- Reading a property leaves an end of what follows the backslash. -/
theorem leaves_readProperty (ignoreCase negated : Bool) (s rest : Bytes) (hrest : rest <:+ s.tail) :
    Leaves s.tail (readProperty ignoreCase negated s rest) := by
  intro a ha
  obtain ⟨⟨point, after⟩, hread, hname⟩ := of_bind ha
  dsimp only at hname
  split_ifs at hname
  · cases hcut : Bytes.cut 125 s with
    | none =>
      rw [hcut] at hname
      obtain ⟨_, _, hfault⟩ := of_bind hname
      cases hfault
    | some parts =>
      obtain ⟨before, after⟩ := parts
      rw [hcut] at hname
      obtain ⟨_, _, hname⟩ := of_bind hname
      exact (leaves_namedProperty _ _ _ _ _ a hname).trans (suffix_of_cut hcut)
  · have hafter : after <:+ rest := by
      cases rest with
      | nil =>
        cases hread
        exact List.suffix_refl []
      | cons c rest => exact (leaves_readChar c rest _ hread).trans (List.suffix_cons c rest)
    exact ((leaves_namedProperty _ _ _ _ _ a hname).trans hafter).trans hrest

/-- An escape for a property leaves an end of what follows the backslash. -/
theorem suffix_of_propertyEscape? {ignoreCase : Bool} {s : Bytes} {a : CharSet × Bytes}
    (h : propertyEscape? ignoreCase s = .ok (some a)) : a.2 <:+ s.tail := by
  unfold propertyEscape? at h
  split at h
  case h_1 letter rest =>
    split_ifs at h
    · obtain ⟨b, hb, heq⟩ := of_map h
      cases heq
      exact leaves_readProperty _ _ _ _ (List.suffix_cons letter rest) a hb
    · cases h
  case h_2 => cases h

/-- A named class leaves an end of what follows its bracket. -/
theorem suffix_of_namedClass? {ignoreCase : Bool} {s : Bytes} {a : CharSet × Bytes}
    (h : namedClass? ignoreCase s = .ok (some a)) : a.2 <:+ s.tail := by
  unfold namedClass? at h
  split at h
  case h_1 rest =>
    cases hcut : Bytes.cutInfix ":]" rest with
    | none =>
      rw [hcut] at h
      cases h
    | some parts =>
      obtain ⟨name, after⟩ := parts
      rw [hcut] at h
      dsimp only at h
      split at h
      case h_1 => cases h
      case h_2 =>
        cases h
        have hafter : after.drop 2 <:+ rest :=
          (List.drop_suffix 2 after).trans (Bytes.suffix_of_cutInfix hcut)
        exact hafter.trans (List.suffix_cons 58 rest)
  case h_2 => cases h

/-- A character in brackets takes at least one byte. -/
theorem leaves_readClassChar (whole s : Bytes) : Leaves s.tail (readClassChar whole s) := by
  unfold readClassChar
  split
  case h_1 => exact .error _
  case h_2 rest => exact leaves_readEscape _
  case h_3 hne _ =>
    obtain ⟨b, rest, rfl⟩ := List.exists_cons_of_ne_nil hne
    exact leaves_readChar b rest

/-- A range in brackets takes at least one byte. -/
theorem leaves_readRange (ignoreCase : Bool) (whole s : Bytes) :
    Leaves s.tail (readRange ignoreCase whole s) := by
  refine (leaves_readClassChar whole s).bind fun ⟨lo, rest⟩ hrest => ?_
  dsimp only
  split
  case h_1 next tail =>
    refine .ite (fun _ => .ok hrest) fun _ => ?_
    refine (leaves_readClassChar whole (next :: tail)).bind fun ⟨hi, rest'⟩ hrest' => ?_
    refine .ite (fun _ => .error _) fun _ => .ok ?_
    have htail : tail <:+ 45 :: next :: tail :=
      (List.suffix_cons next tail).trans (List.suffix_cons 45 _)
    exact (hrest'.trans htail).trans hrest
  case h_2 => exact .ok hrest

/-- An item in brackets takes at least one byte. -/
theorem leaves_readClassItem (ignoreCase : Bool) (whole s : Bytes) :
    Leaves s.tail (readClassItem ignoreCase whole s) := by
  intro a ha
  obtain ⟨named, hnamed, h⟩ := of_bind ha
  cases named with
  | some item =>
    cases h
    exact suffix_of_namedClass? hnamed
  | none =>
    obtain ⟨property, hproperty, h⟩ := of_bind h
    cases property with
    | some item =>
      cases h
      exact suffix_of_propertyEscape? hproperty
    | none =>
      cases hclass : classEscape? ignoreCase s with
      | some item =>
        rw [hclass] at h
        cases h
        exact suffix_of_classEscape? hclass
      | none =>
        rw [hclass] at h
        exact leaves_readRange _ _ _ a h

/-- The items in brackets leave an end of the text. -/
theorem leaves_readItems (ignoreCase : Bool) (whole : Bytes) (n : Nat) (first : Bool)
    (set : CharSet) (s : Bytes) : Leaves s (readItems ignoreCase whole n first set s) := by
  induction n generalizing first set s with
  | zero => exact .error _
  | succ n ih =>
    unfold readItems
    split
    case h_1 rest => exact .ok (List.suffix_cons 93 rest)
    case h_2 =>
      refine (leaves_readClassItem ignoreCase whole s).bind fun ⟨item, rest⟩ hrest => ?_
      exact (ih _ _ rest).mono (hrest.trans (List.tail_suffix s))

/-- A bracket leaves an end of what follows its first byte. -/
theorem leaves_readBracket (ignoreCase : Bool) (b : UInt8) (rest : Bytes) :
    Leaves rest (readBracket ignoreCase (b :: rest)) := by
  unfold readBracket
  dsimp only [List.drop_succ_cons, List.drop_zero]
  split
  case h_1 items heq =>
    obtain rfl : rest = 94 :: items := heq
    refine (leaves_readItems _ _ _ _ _ items).bind fun ⟨set, rest⟩ hrest => .ok ?_
    exact hrest.trans (List.suffix_cons 94 items)
  case h_2 =>
    exact (leaves_readItems _ _ _ _ _ rest).bind fun ⟨set, rest'⟩ hrest => .ok hrest

/-- A count leaves an end of the text. -/
theorem suffix_of_readCount {s rest : Bytes} {n : Nat} (h : readCount s = some (n, rest)) :
    rest <:+ s := by
  unfold readCount at h
  dsimp only at h
  split_ifs at h
  cases h
  exact List.drop_suffix _ s

/-- A closing brace leaves an end of the text. -/
theorem suffix_of_afterBrace? {s rest : Bytes} (h : afterBrace? s = some rest) : rest <:+ s := by
  unfold afterBrace? at h
  split at h
  case h_1 =>
    cases h
    exact List.suffix_cons 125 rest
  case h_2 => cases h

/-- Bounds in braces leave an end of what follows the first brace. -/
theorem suffix_of_readBounds? {s rest : Bytes} {least : Nat} {most : Option Nat}
    (h : readBounds? s = some (least, most, rest)) : rest <:+ s.tail := by
  unfold readBounds? at h
  obtain ⟨⟨least', after⟩, hleast, h⟩ := Option.bind_eq_some_iff.mp h
  have hafter := suffix_of_readCount hleast
  rw [List.drop_one] at hafter
  dsimp only at h
  split at h
  case h_1 after =>
    have hcomma := (List.suffix_cons 44 after).trans hafter
    split at h
    case h_1 hbrace =>
      cases h
      exact (suffix_of_afterBrace? hbrace).trans hcomma
    case h_2 =>
      obtain ⟨⟨most', after'⟩, hmost, h⟩ := Option.bind_eq_some_iff.mp h
      obtain ⟨rest', hbrace, heq⟩ := Option.map_eq_some_iff.mp h
      cases heq
      exact ((suffix_of_afterBrace? hbrace).trans (suffix_of_readCount hmost)).trans hcomma
  case h_2 =>
    obtain ⟨rest', hbrace, heq⟩ := Option.map_eq_some_iff.mp h
    cases heq
    exact (suffix_of_afterBrace? hbrace).trans hafter

namespace Building

/-- Whether a step that succeeds leaves an end of a text. -/
def Leaves (s : Bytes) (x : Building Bytes) : Prop :=
  ∀ p r q, x p = .ok (r, q) → r <:+ s

namespace Leaves

variable {s t : Bytes} {x y : Building Bytes}

/-- A step that gives an end of a text leaves it. -/
theorem pure {r : Bytes} (h : r <:+ s) : Leaves s (Pure.pure r) := by
  rintro p _ q ⟨⟩
  exact h

/-- A step that fails leaves any text. -/
theorem throw (e : Error) : Leaves s (throw e) := by
  rintro p r q ⟨⟩

/-- What leaves an end of a text leaves an end of every text that ends with it. -/
theorem mono (h : Leaves s x) (hs : s <:+ t) : Leaves t x :=
  fun p r q hrun => (h p r q hrun).trans hs

/-- What two steps leave is what the second one leaves. -/
theorem bind {u : Building α} {f : α → Building Bytes} (h : ∀ a, Leaves s (f a)) :
    Leaves s (u >>= f) := by
  intro p r q hrun
  obtain ⟨a, p', -, hrun⟩ := of_run_bind hrun
  exact h a p' r q hrun

/-- A step after a reading that does not build. -/
theorem lift {e : Except Error α} {f : α → Building Bytes} (h : ∀ a, e = .ok a → Leaves s (f a)) :
    Leaves s ((liftM e : Building α) >>= f) := by
  intro p r q hrun
  obtain ⟨a, p', hread, hrun⟩ := of_run_bind hrun
  exact h a (of_run_lift hread).1 p' r q hrun

/-- A choice of steps leaves what each of them leaves where it is chosen. -/
theorem ite {c : Prop} [Decidable c] (h : c → Leaves s x) (h' : ¬ c → Leaves s y) :
    Leaves s (if c then x else y) :=
  iteInduction (motive := Leaves s) h h'

end Leaves

/-- A question mark and what follows it make up the text. -/
theorem splitQuest_suffix (s : Bytes) : (splitQuest s).2 <:+ s := by
  unfold splitQuest
  split
  case h_1 rest => exact List.suffix_cons 63 rest
  case h_2 => exact List.suffix_refl s

/-- A repetition leaves an end of what follows it. -/
theorem leaves_repeatLast (repetition : Repetition) (before after : Bytes) :
    Leaves after (repeatLast repetition before after) := by
  intro p r q hrun
  obtain ⟨rfl, -⟩ := leadsTo_repeatLast repetition before after p r q hrun
  exact splitQuest_suffix after

/-- Flags leave an end of the text. -/
theorem leaves_readFlags (start : Bytes) (n : Nat) (flags : Flags) (sign : FlagSign) (s : Bytes) :
    Leaves s (readFlags start n flags sign s) := by
  induction n generalizing flags sign s with
  | zero => exact .throw _
  | succ n ih =>
    cases s with
    | nil => exact .throw _
    | cons b s =>
      refine .lift fun ⟨point, rest⟩ hread => ?_
      have hrest : rest <:+ b :: s := (leaves_readChar b s _ hread).trans (List.suffix_cons b s)
      have hmore : ∀ flags sign, Leaves (b :: s) (readFlags start n flags sign rest) :=
        fun flags sign => (ih flags sign rest).mono hrest
      refine .ite (fun _ => hmore _ _) fun _ => .ite (fun _ => hmore _ _) fun _ => ?_
      refine .ite (fun _ => hmore _ _) fun _ => .ite (fun _ => hmore _ _) fun _ => ?_
      refine .ite (fun _ => ?_) fun _ => .ite (fun _ => ?_) fun _ => .throw _
      · cases sign with
        | on => exact hmore _ _
        | off saw => exact .throw _
      · split
        case h_1 => exact .throw _
        case h_2 => 
          refine .ite (fun _ => ?_) fun _ => ?_
          · exact .bind fun _ => .pure hrest
          · exact .bind fun _ => .pure hrest

/-- The name of a group takes at least one byte. -/
theorem leaves_readGroupName (s : Bytes) (skip : Nat) : Leaves s.tail (readGroupName s skip) := by
  unfold readGroupName
  split
  case h_1 => exact .bind fun _ => .throw _
  case h_2 before rest hcut =>
    refine .bind fun _ => ?_
    have hrest : rest <:+ s.tail := suffix_of_cut hcut
    refine .ite (fun _ => ?_) fun _ => .bind fun _ => ?_
    · exact .bind fun _ => .bind fun _ => .pure hrest
    · exact .bind fun _ => .bind fun _ => .pure hrest

/-- The start of a group takes at least one byte. -/
theorem leaves_readGroupStart (s : Bytes) : Leaves s.tail (readGroupStart s) := by
  unfold readGroupStart
  split
  case h_1 => exact leaves_readGroupName s 4
  case h_2 => exact leaves_readGroupName s 3
  case h_3 =>
    refine .bind fun p => (leaves_readFlags _ _ _ _ _).mono ?_
    rw [← List.drop_one]
    exact List.drop_suffix_drop_left s (by decide)

/-- Quoted text leaves an end of the text. -/
theorem leaves_readQuotation (s : Bytes) : Leaves s (readQuotation s) := by
  unfold readQuotation
  cases hcut : Bytes.cutInfix "\\E" s with
  | none => exact .bind fun _ => .pure List.nil_suffix
  | some parts =>
    obtain ⟨quoted, rest⟩ := parts
    refine .bind fun _ => .pure ?_
    exact (List.drop_suffix 2 rest).trans (Bytes.suffix_of_cutInfix hcut)

/-- A part that begins with a backslash leaves an end of what follows it. -/
theorem leaves_readBackslash (b : UInt8) (rest : Bytes) :
    Leaves rest (readBackslash (b :: rest)) := by
  have hrest : (b :: rest).drop 2 <:+ rest := List.drop_suffix 1 rest
  unfold readBackslash
  have hanchor : ∀ condition, Leaves rest (do
      pushNew (.assert condition)
      return (b :: rest).drop 2) := fun _ => .bind fun _ => .pure hrest
  refine .ite (fun _ => hanchor _) fun _ => .ite (fun _ => hanchor _) fun _ => ?_
  refine .ite (fun _ => hanchor _) fun _ => .ite (fun _ => hanchor _) fun _ => ?_
  refine .ite (fun _ => .throw _) fun _ => .ite (fun _ => ?_) fun _ => .bind fun p => ?_
  · exact (leaves_readQuotation _).mono hrest
  · refine .lift fun property hproperty => ?_
    cases property with
    | some item => exact .bind fun _ => .pure (suffix_of_propertyEscape? hproperty)
    | none =>
      cases hclass : classEscape? p.flags.ignoreCase (b :: rest) with
      | some item => exact .bind fun _ => .pure (suffix_of_classEscape? hclass)
      | none =>
        refine .lift fun ⟨point, after⟩ hread => .bind fun _ => .pure ?_
        exact leaves_readEscape (b :: rest) _ hread

/-- Braces leave an end of what follows their first byte. -/
theorem leaves_readBraces (b : UInt8) (rest : Bytes) : Leaves rest (readBraces (b :: rest)) := by
  unfold readBraces
  split
  case h_1 => exact .bind fun _ => .pure (List.suffix_refl rest)
  case h_2 least most after hbounds =>
    have hafter : after <:+ rest := suffix_of_readBounds? hbounds
    refine .ite (fun _ => .bind fun _ => ?_) fun _ => ?_ <;>
    exact (leaves_repeatLast _ _ _).mono hafter

/-- Every part takes at least its first byte. -/
theorem leaves_readPart (b : UInt8) (rest : Bytes) : Leaves rest (readPart b rest) := by
  have hall : ∀ {u : Building Unit}, Leaves rest (do u; return rest) :=
    .bind fun _ => .pure (List.suffix_refl rest)
  refine .bind fun p => .ite (fun _ => ?_) fun _ => ?_
  · split
    case h_1 => exact leaves_readGroupStart _
    case h_2 => exact hall
  refine .ite (fun _ => hall) fun _ => .ite (fun _ => hall) fun _ => ?_
  refine .ite (fun _ => hall) fun _ => .ite (fun _ => hall) fun _ => ?_
  refine .ite (fun _ => hall) fun _ => .ite (fun _ => ?_) fun _ => ?_
  · refine .lift fun ⟨set, after⟩ hread => .bind fun _ => .pure ?_
    exact leaves_readBracket _ b rest _ hread
  refine .ite (fun _ => leaves_repeatLast _ _ _) fun _ => ?_
  refine .ite (fun _ => leaves_repeatLast _ _ _) fun _ => ?_
  refine .ite (fun _ => leaves_repeatLast _ _ _) fun _ => ?_
  refine .ite (fun _ => leaves_readBraces b rest) fun _ => ?_
  refine .ite (fun _ => leaves_readBackslash b rest) fun _ => ?_
  refine .lift fun ⟨point, after⟩ hread => .bind fun _ => .pure ?_
  exact leaves_readChar b rest _ hread

end Building

end ReturnAudit.Regex
