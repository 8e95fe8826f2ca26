import ReturnAudit.Proofs.Regex.Leftovers

/-!
# Reading in front of a closing

An expression that is written inside a group is followed by the parenthesis that closes the group
and by an end anchor. A reader of a part of the expression that succeeds where the text ends also
succeeds there, on the same characters: nothing it reads reaches into what follows.
-/

namespace ReturnAudit.Utf8

/-- A well-formed character is in the text in full, so what follows makes no difference to it. -/
theorem decodeHead_append {b : UInt8} {rest : Bytes} (h : (decodeHead b rest).valid = true)
    (t : Bytes) :
    decodeHead b (rest ++ t) = decodeHead b rest ∧ (decodeHead b rest).width - 1 ≤ rest.length := by
  unfold decodeHead at h ⊢
  by_cases h₁ : b < 0x80
  · simp [h₁]
  by_cases h₂ : b < 0xC2
  · simp only [h₁, h₂, if_true, if_false] at h
    cases h
  by_cases h₃ : b < 0xE0
  · simp only [h₁, h₂, h₃, if_true, if_false] at h ⊢
    match rest with
    | [] => cases h
    | c :: rest =>
      simp only [List.cons_append] at h ⊢
      split_ifs at h ⊢
      · simp
      · cases h
  by_cases h₄ : b < 0xF0
  · simp only [h₁, h₂, h₃, h₄, if_true, if_false] at h ⊢
    match rest with
    | [] | [_] => cases h
    | c :: d :: rest =>
      simp only [List.cons_append] at h ⊢
      split_ifs at h ⊢
      · simp
      · cases h
  by_cases h₅ : b < 0xF5
  · simp only [h₁, h₂, h₃, h₄, h₅, if_true, if_false] at h ⊢
    match rest with
    | [] | [_] | [_, _] => cases h
    | c :: d :: e :: rest =>
      simp only [List.cons_append] at h ⊢
      split_ifs at h ⊢
      · simp
      · cases h
  · simp only [h₁, h₂, h₃, h₄, h₅, if_false] at h
    cases h
end ReturnAudit.Utf8

namespace ReturnAudit

/-- Whether the first character of a name is kept in its canonical form. -/
def CodePoints.beginsPlainly (name : String) : Bool :=
  name.front?.any fun c => c != '_' && c != '-' && c != ' '

/-- A name that begins plainly has a canonical form that is not empty. -/
theorem CodePoints.canonicalName_ne_empty {name : String} (h : beginsPlainly name = true) :
    canonicalName name ≠ "" := by
  obtain ⟨c, hfront, hkept⟩ := (Option.any_eq_true _ _).mp h
  rw [String.front?_eq, List.head?_eq_some_iff] at hfront
  obtain ⟨rest, hrest⟩ := hfront
  rw [canonicalName, hrest, List.filter_cons, if_pos hkept]
  simp

/-- No category has an empty name. -/
theorem Category.find?_empty : find? "" = none := by
  have hbegins : longNames.all (fun e => CodePoints.beginsPlainly e.1) = true := by decide +kernel
  have hlong : ∀ e ∈ longNames, ¬CodePoints.canonicalName e.1 = "" := fun e he =>
    CodePoints.canonicalName_ne_empty (List.all_eq_true.mp hbegins e he)
  unfold find?
  rw [List.find?_eq_none.mpr fun e he => by simpa using hlong e he]
  -- so the name stands for itself, and no category has it
  exact if_pos (by decide +kernel)

/-- No script has an empty name. -/
theorem Script.find?_empty : find? "" = none := by
  have hbegins : table.all (fun e => CodePoints.beginsPlainly e.1) = true := by decide +kernel
  rw [find?, Option.map_eq_none_iff, List.find?_eq_none]
  intro e he
  simpa using CodePoints.canonicalName_ne_empty (List.all_eq_true.mp hbegins e he)

end ReturnAudit

namespace ReturnAudit.Regex

variable {α β ε ε' : Type}

/-- What stands behind an expression that is read between anchors. -/
def closing : Bytes := [41, 36]

/-- What is read when the closing stands behind the text. -/
def withClosing (x : α × Bytes) : α × Bytes :=
  (x.1, x.2 ++ closing)

/-- Whether a second reading succeeds where a first one does, with a value that follows from it. -/
def Carries (φ : α → α) (x : Except ε α) (y : Except ε' α) : Prop :=
  ∀ a, x = .ok a → y = .ok (φ a)

namespace Carries

variable {φ : α → α} {ψ : β → β} {x : Except ε α} {y : Except ε' α}

/-- A reading that succeeds carries over to the value that follows from its own. -/
theorem ok (a : α) : Carries φ (.ok a : Except ε α) (.ok (φ a) : Except ε' α) := by
  rintro _ ⟨⟩
  rfl

/-- A reading that fails carries over to any other. -/
theorem error (e : ε) (y : Except ε' α) : Carries φ (.error e) y := by
  rintro _ ⟨⟩

/-- Readings carry over one after another. -/
theorem bind {f : α → Except ε β} {g : α → Except ε' β} (h : Carries φ x y)
    (h' : ∀ a, x = .ok a → Carries ψ (f a) (g (φ a))) : Carries ψ (x >>= f) (y >>= g) := by
  intro b hb
  obtain ⟨a, ha, hfa⟩ := of_bind hb
  rw [h a ha]
  exact h' a ha b hfa

/-- A choice of readings carries over if each of them does where it is chosen. -/
theorem ite {c : Prop} [Decidable c] {x x' : Except ε α} {y y' : Except ε' α}
    (h : c → Carries φ x y) (h' : ¬ c → Carries φ x' y') :
    Carries φ (if c then x else x') (if c then y else y') :=
  rel_ite h h'

/-- A reading whose value is changed carries over if the change does. -/
theorem map {f : α → β} (h : Carries φ x y) (hf : ∀ a, f (φ a) = ψ (f a)) :
    Carries ψ (f <$> x) (f <$> y) := by
  intro b hb
  obtain ⟨a, ha, rfl⟩ := of_map hb
  rw [h a ha, ← hf]
  rfl

end Carries

/-- What has been read of a text is the same in front of a closing. -/
theorem consumed_append (s rest t : Bytes) : consumed (s ++ t) (rest ++ t) = consumed s rest := by
  have hlength : (s ++ t).length - (rest ++ t).length = s.length - rest.length := by
    simp only [List.length_append]
    omega
  rw [consumed, hlength, List.take_append_of_le_length (Nat.sub_le _ _), consumed]

/-- A character is read in front of the closing as it is at the end. -/
theorem readChar_carries {s : Bytes} (h : s ≠ []) :
    Carries withClosing (readChar s) (readChar (s ++ closing)) := by
  obtain ⟨b, rest, rfl⟩ := List.exists_cons_of_ne_nil h
  simp only [readChar, List.cons_append]
  by_cases hvalid : (Utf8.decodeHead b rest).valid = true
  · obtain ⟨hhead, hwidth⟩ := Utf8.decodeHead_append hvalid closing
    rw [hhead, if_pos hvalid, if_pos hvalid, List.drop_append_of_le_length hwidth]
    exact .ok _
  · rw [if_neg hvalid]
    exact .error _ _

/-- A code point is read in front of the closing as it is at the end. -/
theorem readPoint_carries {s : Bytes} (h : s ≠ []) :
    Carries withClosing (readPoint s) (readPoint (s ++ closing)) := by
  intro a ha
  rw [readPoint, readChar_carries h a (of_mapError ha)]
  rfl

/-- Nothing but the end is read of an empty text. -/
theorem readPoint_nil : readPoint [] = .ok (Utf8.replacement, []) :=
  rfl

/-- Octal digits end in front of the closing. -/
theorem readOctal_closing (n value : Nat) (s : Bytes) :
    readOctal n value (s ++ closing) = withClosing (readOctal n value s) := by
  induction n generalizing value s with
  | zero => simp [readOctal, withClosing]
  | succ n ih =>
    cases s with
    | nil => rfl
    | cons b s =>
      simp only [readOctal, List.cons_append]
      cases octalDigit? b with
      | none => rfl
      | some digit => exact ih _ _

/-- A longer text allows for at least as many steps. -/
theorem readBraced_carries {n n' : Nat} (hn : n ≤ n') (value : Option Nat) (s : Bytes) :
    Carries withClosing (readBraced n value s) (readBraced n' value (s ++ closing)) := by
  induction n generalizing n' value s with
  | zero => cases s <;> exact .error _ _
  | succ n ih =>
    cases s with
    | nil => exact .error _ _
    | cons b s =>
      obtain ⟨n', rfl⟩ : ∃ m, n' = m + 1 := ⟨n' - 1, by omega⟩
      refine (readPoint_carries (List.cons_ne_nil b s)).bind ?_
      rintro ⟨point, rest⟩ -
      refine .ite (fun _ => ?_) fun _ => ?_
      · cases value with
        | none => exact .error _ _
        | some value => exact .ok _
      · cases hexDigit? point with
        | none => exact .error _ _
        | some digit =>
          exact .ite (fun _ => .error _ _) fun _ => ih (Nat.le_of_succ_le_succ hn) _ _

/-- Hexadecimal digits are read in front of the closing as they are at the end. -/
theorem readHex_carries (s : Bytes) :
    Carries withClosing (readHex s) (readHex (s ++ closing)) := by
  cases s with
  | nil => exact .error _ _
  | cons b s =>
    refine (readPoint_carries (List.cons_ne_nil b s)).bind ?_
    rintro ⟨first, rest⟩ -
    refine .ite (fun _ => readBraced_carries (by simp) _ _) fun _ => ?_
    cases rest with
    | nil =>
      rw [readPoint_nil]
      cases hexDigit? first <;> exact .error _ _
    | cons b' rest =>
      refine (readPoint_carries (List.cons_ne_nil b' rest)).bind ?_
      rintro ⟨second, rest⟩ -
      simp only [withClosing]
      cases hexDigit? first with
      | none => exact .error _ _
      | some high =>
        cases hexDigit? second with
        | none => exact .error _ _
        | some low => exact .ok _

/-- An escaped character is read in front of the closing as it is at the end. -/
theorem readEscaped_carries {s : Bytes} (h : s ≠ []) :
    Carries withClosing (readEscaped s) (readEscaped (s ++ closing)) := by
  refine (readPoint_carries h).bind ?_
  rintro ⟨point, rest⟩ -
  have hdigit : (rest ++ closing).head?.any (fun b => (octalDigit? b).isSome) =
      rest.head?.any fun b => (octalDigit? b).isSome := by
    cases rest <;> rfl
  simp only [withClosing, hdigit]
  refine .ite (fun _ => ?_) fun _ => .ite (fun _ => readHex_carries rest) fun _ => ?_
  · rw [readOctal_closing]
    exact .ok _
  · cases escapedControl? point with
    | some control => exact .ok _
    | none => exact .ite (fun _ => .ok _) fun _ => .error _ _

/-- An escape is read in front of the closing as it is at the end. -/
theorem readEscape_carries (s : Bytes) :
    Carries withClosing (readEscape s) (readEscape (s ++ closing)) := by
  match s with
  | [] | [_] => exact .error _ _
  | b :: c :: rest =>
    intro a ha
    have hread := readEscaped_of_readEscape ha
    have hclosing := readEscaped_carries (List.cons_ne_nil c rest) a hread
    simp only [readEscape, List.cons_append, List.drop_succ_cons, List.drop_zero] at hclosing ⊢
    rw [hclosing]

/-- Whether an escape is one for a class is told by its own bytes. -/
theorem classEscape?_closing (ignoreCase : Bool) (s : Bytes) :
    classEscape? ignoreCase (s ++ closing) = (classEscape? ignoreCase s).map withClosing := by
  match s with
  | [] => rfl
  | b :: rest =>
    by_cases hb : b = 92
    · subst hb
      cases rest with
      | nil => rfl
      | cons letter rest =>
        simp only [classEscape?, List.cons_append]
        split_ifs <;> rfl
    · unfold classEscape?
      split <;> simp_all

/-- A property that is found is found in front of the closing, whatever the error would quote. -/
theorem namedProperty_carries (ignoreCase negated : Bool) (excerpt excerpt' name rest : Bytes) :
    Carries withClosing (namedProperty ignoreCase negated excerpt name rest)
      (namedProperty ignoreCase negated excerpt' name (rest ++ closing)) := by
  unfold namedProperty
  split
  cases property? _ with
  | none => exact .error _ _
  | some set => exact .ok _

/-- The empty text names no property. -/
theorem property?_nil : property? [] = none := by
  have hname : CodePoints.canonicalName
      (String.ofList (([] : Bytes).map fun b => Char.ofNat b.toNat)) = "" := by
    decide
  rw [property?, hname, Category.find?_empty, Script.find?_empty]
  rfl

/-- An unknown property is an error. -/
theorem namedProperty_of_unknown {name : Bytes} (h : property? name = none)
    (hsign : name.head? ≠ some 94) (ignoreCase negated : Bool) (excerpt rest : Bytes) :
    namedProperty ignoreCase negated excerpt name rest = .error ⟨.charRange, excerpt⟩ := by
  rw [namedProperty, h]
  rintro name rfl
  exact hsign rfl

/-- A property without a name is none, whatever follows. -/
theorem readProperty_nil_ne_ok (ignoreCase negated : Bool) (s : Bytes) (a : CharSet × Bytes) :
    readProperty ignoreCase negated s [] ≠ .ok a := by
  intro h
  obtain ⟨⟨point, after⟩, hread, hname⟩ := of_bind h
  cases hread
  dsimp only at hname
  rw [if_neg (by decide), show consumed ([] : Bytes) [] = [] from rfl,
    namedProperty_of_unknown property?_nil (by decide)] at hname
  cases hname

/-- A property is read in front of the closing as it is at the end. -/
theorem readProperty_carries (ignoreCase negated : Bool) (s rest : Bytes) :
    Carries withClosing (readProperty ignoreCase negated s rest)
      (readProperty ignoreCase negated (s ++ closing) (rest ++ closing)) := by
  cases rest with
  | nil => exact fun a ha => absurd ha (readProperty_nil_ne_ok _ _ _ a)
  | cons c rest =>
    refine (readChar_carries (List.cons_ne_nil c rest)).bind ?_
    rintro ⟨point, after⟩ -
    refine .ite (fun _ => ?_) fun _ => ?_
    · cases hcut : Bytes.cut 125 s with
      | none =>
        intro a ha
        obtain ⟨_, _, hfault⟩ := of_bind ha
        cases hfault
      | some parts =>
        obtain ⟨before, after⟩ := parts
        rw [Bytes.cut_append hcut closing]
        exact Carries.bind (φ := id) (fun a ha => ha) fun _ _ => namedProperty_carries _ _ _ _ _ _
    · dsimp only [withClosing]
      rw [consumed_append (c :: rest) after closing]
      exact namedProperty_carries _ _ _ _ _ _

/-- What begins with another byte than a backslash is no property. -/
theorem propertyEscape?_of_ne {b : UInt8} (h : b ≠ 92) (ignoreCase : Bool) (rest : Bytes) :
    propertyEscape? ignoreCase (b :: rest) = .ok none := by
  unfold propertyEscape?
  split
  case h_1 heq => exact absurd (List.cons.inj heq).1 h
  case h_2 => rfl

/-- An escape for a property is read in front of the closing as it is at the end. -/
theorem propertyEscape?_carries (ignoreCase : Bool) (s : Bytes) :
    Carries (Option.map withClosing) (propertyEscape? ignoreCase s)
      (propertyEscape? ignoreCase (s ++ closing)) := by
  match s with
  | [] => exact .ok none
  | b :: rest =>
    by_cases hb : b = 92
    · subst hb
      cases rest with
      | nil => exact .ok none
      | cons letter rest =>
        refine .ite (fun _ => ?_) fun _ => .ok none
        exact (readProperty_carries _ _ _ rest).map fun _ => rfl
    · rw [propertyEscape?_of_ne hb, List.cons_append, propertyEscape?_of_ne hb]
      exact .ok none

/-- What begins with anything but a bracket and a colon is no named class. -/
theorem namedClass?_of_ne {s : Bytes} (h : ∀ rest, s ≠ 91 :: 58 :: rest) (ignoreCase : Bool) :
    namedClass? ignoreCase s = .ok none := by
  unfold namedClass?
  split
  case h_1 => exact absurd rfl (h _)
  case h_2 => rfl

/-- A named class is read in front of the closing as it is at the end. -/
theorem namedClass?_carries (ignoreCase : Bool) (s : Bytes) :
    Carries (Option.map withClosing) (namedClass? ignoreCase s)
      (namedClass? ignoreCase (s ++ closing)) := by
  by_cases hs : ∃ rest, s = 91 :: 58 :: rest
  · obtain ⟨rest, rfl⟩ := hs
    simp only [List.cons_append, namedClass?]
    cases hcut : Bytes.cutInfix ":]" rest with
    | none =>
      rw [Bytes.cutInfix_append_eq_none (by decide) hcut (by decide +kernel)]
      exact .ok none
    | some parts =>
      obtain ⟨name, after⟩ := parts
      have hlength : 2 ≤ after.length := (Bytes.prefix_of_cutInfix hcut).length_le
      rw [Bytes.cutInfix_append hcut]
      dsimp only
      rw [List.drop_append_of_le_length hlength]
      cases CharSet.namedClasses.find? _ with
      | none => exact .error _ _
      | some entry => exact .ok (some _)
  · rw [namedClass?_of_ne fun rest h => hs ⟨rest, h⟩, namedClass?_of_ne]
    · exact .ok none
    · intro rest h
      match s with
      | [] | [_] => cases h
      | b :: c :: s =>
        cases h
        exact hs ⟨s, rfl⟩

/-- A character in brackets is read in front of the closing as it is at the end. -/
theorem readClassChar_carries (whole whole' s : Bytes) :
    Carries withClosing (readClassChar whole s) (readClassChar whole' (s ++ closing)) := by
  cases s with
  | nil => exact .error _ _
  | cons b rest =>
    by_cases hb : b = 92
    · subst hb
      exact readEscape_carries _
    · have hread : ∀ w rest', readClassChar w (b :: rest') = readChar (b :: rest') := by
        intro w rest'
        rw [readClassChar]
        · simp
        · rintro t ⟨⟩
          exact hb rfl
      rw [hread, List.cons_append, hread]
      exact readChar_carries (List.cons_ne_nil b rest)

/-- A range is read alike, unless a hyphen that would begin one is left at the end of the text. -/
theorem readRange_closing {ignoreCase : Bool} {whole s : Bytes} {a : CharSet × Bytes}
    (h : readRange ignoreCase whole s = .ok a) (hend : a.2 ≠ [45]) (whole' : Bytes) :
    readRange ignoreCase whole' (s ++ closing) = .ok (withClosing a) := by
  obtain ⟨⟨lo, rest⟩, hlo, hrun⟩ := of_bind h
  rw [readRange, bind_of_ok (readClassChar_carries whole whole' s _ hlo)]
  dsimp only [withClosing] at hrun ⊢
  split at hrun
  case h_1 next tail =>
    refine (Carries.ite (fun _ => .ok _) (fun _ => ?_) : Carries withClosing _ _) a hrun
    refine (readClassChar_carries whole whole' (next :: tail)).bind ?_
    rintro ⟨hi, rest⟩ -
    exact .ite (fun _ => .error _ _) fun _ => .ok _
  case h_2 hsingle =>
    cases hrun
    split
    case h_1 next tail heq =>
      cases rest with
      | nil => cases heq
      | cons b rest =>
        obtain ⟨rfl, -⟩ := List.cons.inj heq
        cases rest with
        | nil => exact absurd rfl hend
        | cons c rest => exact (hsingle c rest rfl).elim
    case h_2 => rfl

/-- An item in brackets that does not leave a lone hyphen is read in front of the closing as it is
at the end. -/
theorem readClassItem_closing {ignoreCase : Bool} {whole s : Bytes} {a : CharSet × Bytes}
    (h : readClassItem ignoreCase whole s = .ok a) (hend : a.2 ≠ [45]) (whole' : Bytes) :
    readClassItem ignoreCase whole' (s ++ closing) = .ok (withClosing a) := by
  obtain ⟨named, hnamed, h⟩ := of_bind h
  have hnamed' := namedClass?_carries ignoreCase s _ hnamed
  simp only [readClassItem, hnamed', bind, Except.bind]
  cases named with
  | some item =>
    cases h
    rfl
  | none =>
    obtain ⟨property, hproperty, h⟩ := of_bind h
    have hproperty' := propertyEscape?_carries ignoreCase s _ hproperty
    simp only [hproperty', Option.map_none]
    cases property with
    | some item =>
      cases h
      rfl
    | none =>
      have hclass := classEscape?_closing ignoreCase s
      cases hc : classEscape? ignoreCase s with
      | some item =>
        rw [hc] at h hclass
        cases h
        simp only [Option.map_none, hclass, Option.map_some]
        rfl
      | none =>
        rw [hc] at h hclass
        simp only [Option.map_none, hclass]
        exact readRange_closing h hend whole'

/-- Where no bracket closes, one item is read and then the others. -/
theorem readItems_item {first : Bool} {s : Bytes} (h : first = false → s.head? ≠ some 93)
    (ignoreCase : Bool) (whole : Bytes) (n : Nat) (set : CharSet) :
    readItems ignoreCase whole (n + 1) first set s = readClassItem ignoreCase whole s >>= fun x =>
      readItems ignoreCase whole n false (set.union x.1) x.2 := by
  rw [readItems]
  rintro rest hfirst rfl
  exact h hfirst rfl

/-- Without a closing bracket the items cannot be read. -/
theorem readItems_nil (ignoreCase : Bool) (whole : Bytes) (n : Nat) (first : Bool) (set : CharSet)
    (a : CharSet × Bytes) : readItems ignoreCase whole n first set [] ≠ .ok a := by
  intro h
  cases n with
  | zero => cases h
  | succ n =>
    rw [readItems_item (by simp)] at h
    cases h

/-- A class that ends in a hyphen is not closed. -/
theorem readItems_hyphen (ignoreCase : Bool) (whole : Bytes) (n : Nat) (first : Bool)
    (set : CharSet) (a : CharSet × Bytes) :
    readItems ignoreCase whole n first set [45] ≠ .ok a := by
  intro h
  cases n with
  | zero => cases h
  | succ n =>
    rw [readItems_item (by simp)] at h
    have hitem : readClassItem ignoreCase whole [45] =
        .ok ((CharSet.single 45).foldedIf ignoreCase, []) := rfl
    rw [bind_of_ok hitem] at h
    exact readItems_nil _ _ _ _ _ _ h

/-- The items in brackets are read in front of the closing as they are at the end. -/
theorem readItems_carries {n n' : Nat} (hn : n ≤ n') (ignoreCase : Bool) (whole whole' : Bytes)
    (first : Bool) (set : CharSet) (s : Bytes) :
    Carries withClosing (readItems ignoreCase whole n first set s)
      (readItems ignoreCase whole' n' first set (s ++ closing)) := by
  induction n generalizing n' first set s with
  | zero => exact .error _ _
  | succ n ih =>
    obtain ⟨n', rfl⟩ : ∃ m, n' = m + 1 := ⟨n' - 1, by omega⟩
    intro a ha
    -- either the class closes here, or an item is read and then the others
    by_cases hend : first = false ∧ s.head? = some 93
    · obtain ⟨rfl, hs⟩ := hend
      obtain ⟨rest, rfl⟩ := List.head?_eq_some_iff.mp hs
      cases ha
      rfl
    · have hs : first = false → s.head? ≠ some 93 := fun hfirst hs => hend ⟨hfirst, hs⟩
      have hs' : first = false → (s ++ closing).head? ≠ some 93 := by
        intro hfirst
        cases s with
        | nil => decide
        | cons b s => exact hs hfirst
      rw [readItems_item hs] at ha
      obtain ⟨⟨item, rest⟩, hitem, hrest⟩ := of_bind ha
      -- an item before a lone hyphen could reach into the closing, but such a class is not closed
      have hhyphen : rest ≠ [45] := by
        rintro rfl
        exact readItems_hyphen _ _ _ _ _ _ hrest
      rw [readItems_item hs', bind_of_ok (readClassItem_closing hitem hhyphen whole')]
      exact ih (Nat.le_of_succ_le_succ hn) _ _ _ a hrest

/-- A bracket that is not negated holds items. -/
theorem readBracket_plain {c : UInt8} (h : c ≠ 94) (ignoreCase : Bool) (b : UInt8) (rest : Bytes) :
    readBracket ignoreCase (b :: c :: rest) =
      readItems ignoreCase (b :: c :: rest) (rest.length + 2) true .empty (c :: rest) >>= fun x =>
        .ok (x.1.signed false, x.2) := by
  unfold readBracket
  dsimp only [List.drop_succ_cons, List.drop_zero]
  split
  case h_1 heq => exact absurd (List.cons.inj heq).1 h
  case h_2 => rfl

/-- A bracket is read in front of the closing as it is at the end. -/
theorem readBracket_carries {s : Bytes} (h : s ≠ []) (ignoreCase : Bool) :
    Carries withClosing (readBracket ignoreCase s) (readBracket ignoreCase (s ++ closing)) := by
  obtain ⟨b, rest, rfl⟩ := List.exists_cons_of_ne_nil h
  cases rest with
  | nil =>
    intro a ha
    obtain ⟨x, hx, -⟩ := of_bind ha
    exact absurd hx (readItems_nil _ _ _ _ _ _)
  | cons c rest =>
    by_cases hc : c = 94
    · subst hc
      refine (readItems_carries (by simp) _ _ _ _ _ rest).bind ?_
      rintro ⟨set, rest⟩ -
      exact .ok _
    · rw [List.cons_append, List.cons_append, readBracket_plain hc, readBracket_plain hc]
      refine (readItems_carries (by simp) _ _ _ _ _ (c :: rest)).bind ?_
      rintro ⟨set, rest⟩ -
      exact .ok _

/-- There are no digits in the closing. -/
theorem takeWhile_isDigit_closing (s : Bytes) :
    (s ++ closing).takeWhile isDigit = s.takeWhile isDigit := by
  induction s with
  | nil => rfl
  | cons b s ih =>
    rw [List.cons_append, List.takeWhile_cons, List.takeWhile_cons, ih]

/-- A count ends in front of the closing. -/
theorem readCount_closing (s : Bytes) :
    readCount (s ++ closing) = (readCount s).map withClosing := by
  have hlength : (s.takeWhile isDigit).length ≤ s.length :=
    (List.takeWhile_prefix isDigit).length_le
  simp only [readCount, takeWhile_isDigit_closing, List.drop_append_of_le_length hlength]
  split_ifs <;> rfl

/-- A byte that begins a text before the closing begins the text. -/
theorem exists_of_append_closing {b : UInt8} (hb : b ≠ 41) {s rest : Bytes}
    (h : s ++ closing = b :: rest) : ∃ rest', s = b :: rest' ∧ rest = rest' ++ closing := by
  cases s with
  | nil => exact absurd (List.cons.inj h).1.symm hb
  | cons c s =>
    obtain ⟨rfl, rfl⟩ := List.cons.inj h
    exact ⟨s, rfl, rfl⟩

/-- A brace that closes bounds is none of the closing. -/
theorem afterBrace?_closing (s : Bytes) :
    afterBrace? (s ++ closing) = (afterBrace? s).map (· ++ closing) := by
  unfold afterBrace?
  split
  case h_1 heq =>
    obtain ⟨rest, rfl, rfl⟩ := exists_of_append_closing (by decide) heq
    rfl
  case h_2 hopen =>
    split
    case h_1 => exact (hopen _ rfl).elim
    case h_2 => rfl

/-- Bounds are read alike, also where there are none. -/
theorem readBounds?_closing {s : Bytes} (h : s ≠ []) :
    readBounds? (s ++ closing) =
      (readBounds? s).map fun (least, most, rest) => (least, most, rest ++ closing) := by
  obtain ⟨b, s, rfl⟩ := List.exists_cons_of_ne_nil h
  simp only [readBounds?, List.cons_append, List.drop_succ_cons, List.drop_zero, readCount_closing]
  cases readCount s with
  | none => rfl
  | some counted =>
    obtain ⟨least, rest⟩ := counted
    simp only [Option.map_some, withClosing, Option.bind_eq_bind, Option.bind_some]
    by_cases hcomma : ∃ r, rest = 44 :: r
    · obtain ⟨rest, rfl⟩ := hcomma
      simp only [List.cons_append, afterBrace?_closing, readCount_closing]
      cases afterBrace? rest with
      | some after => rfl
      | none =>
        cases readCount rest with
        | none => rfl
        | some counted =>
          obtain ⟨most, rest⟩ := counted
          simp only [Option.map_none, Option.map_some, withClosing, Option.bind_some,
            afterBrace?_closing, Option.map_map]
          rfl
    · split
      case h_1 heq =>
        obtain ⟨rest, rfl, -⟩ := exists_of_append_closing (by decide) heq
        exact (hcomma ⟨rest, rfl⟩).elim
      case h_2 =>
        split
        case h_1 => exact (hcomma ⟨_, rfl⟩).elim
        case h_2 =>
          rw [afterBrace?_closing, Option.map_map, Option.map_map]
          rfl

end ReturnAudit.Regex
