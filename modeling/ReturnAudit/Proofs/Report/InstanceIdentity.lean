import ReturnAudit.Proofs.ReturnCheck.ExceptionTables
import ReturnAudit.Proofs.Text.Cuts

/-!
# What the instance hash tells apart

The text that is hashed for a finding puts seven texts together, and only some of them are divided
by a byte of their own. For names and descriptors as class files have them it can still be read in
one way only. So two findings have the same hash when they have the same pattern, class, method and
called method, and else only when the hash function gives the same number for two different texts.
-/

namespace ReturnAudit

/-! ## Texts of references -/

namespace MethodRef

/-- A reference whose descriptor begins at the first opening parenthesis behind the name. -/
structure Parenthesized (m : MethodRef) : Prop where
  /-- The name has no parenthesis. -/
  name : 40 ∉ m.name
  /-- The descriptor begins with one. -/
  signature : m.signature.head? = some 40

/-- A reference whose owner ends at the last dot before the descriptor and does not look like a
static one. -/
structure Qualified (m : MethodRef) : Prop extends Parenthesized m where
  /-- The name has no dot. -/
  undotted : 46 ∉ m.name
  /-- The owner has no parenthesis. -/
  owner : 40 ∉ m.owner
  /-- The owner does not begin with the mark of a static method. -/
  unmarked : ¬ Bytes.ofString "static " <+: m.owner

/-- What stands before the last dot of a reference: the mark of a static method and the owner. -/
def place (m : MethodRef) : Bytes :=
  (if m.isStatic then Bytes.ofString "static " else []) ++ m.owner

/-- Name and descriptor can be read in one way only. -/
theorem Parenthesized.key_eq_iff {m m' : MethodRef} (h : m.Parenthesized) (h' : m'.Parenthesized) :
    m.key = m'.key ↔ m.name = m'.name ∧ m.signature = m'.signature := by
  constructor
  · intro hkey
    obtain ⟨rest, hrest⟩ := List.head?_eq_some_iff.mp h.signature
    obtain ⟨rest', hrest'⟩ := List.head?_eq_some_iff.mp h'.signature
    rw [key, key, hrest, hrest'] at hkey
    obtain ⟨hname, htail⟩ := Bytes.append_cons_inj h.name h'.name hkey
    exact ⟨hname, by rw [hrest, hrest', htail]⟩
  · rintro ⟨hname, hsignature⟩
    rw [key, key, hname, hsignature]

/-- The mark of a static method can be told from an owner. -/
theorem Qualified.place_eq_iff {m m' : MethodRef} (h : m.Qualified) (h' : m'.Qualified) :
    m.place = m'.place ↔ m.owner = m'.owner ∧ m.isStatic = m'.isStatic := by
  constructor
  · intro hplace
    cases hstatic : m.isStatic <;> cases hstatic' : m'.isStatic <;>
      simp only [place, hstatic, hstatic', if_true, Bool.false_eq_true, if_false,
        List.nil_append] at hplace
    · exact ⟨hplace, rfl⟩
    · exact absurd ⟨m'.owner, hplace.symm⟩ h.unmarked
    · exact absurd ⟨m.owner, hplace⟩ h'.unmarked
    · exact ⟨List.append_cancel_left hplace, rfl⟩
  · rintro ⟨howner, hstatic⟩
    rw [place, place, howner, hstatic]

/-- There is no parenthesis in the place of a qualified method. -/
theorem Qualified.not_mem_place {m : MethodRef} (h : m.Qualified) : 40 ∉ m.place := by
  have hmark : (40 : UInt8) ∉ Bytes.ofString "static " := by decide
  have howner := h.owner
  unfold place
  split <;> simp [hmark, howner]

/-- A reference can be read from its text in one way only. -/
theorem Qualified.text_eq_iff {m m' : MethodRef} (h : m.Qualified) (h' : m'.Qualified) :
    m.text = m'.text ↔ m = m' := by
  refine ⟨fun htext => ?_, fun heq => congrArg text heq⟩
  obtain ⟨rest, hrest⟩ := List.head?_eq_some_iff.mp h.signature
  obtain ⟨rest', hrest'⟩ := List.head?_eq_some_iff.mp h'.signature
  have hparts : ∀ (r : MethodRef) (tail : Bytes), r.signature = 40 :: tail →
      r.text = (r.place ++ 46 :: r.name) ++ 40 :: tail := by
    intro r tail htail
    have hdot : Bytes.ofString "." = [46] := by decide
    simp [text, place, htail, hdot]
  have hfront : ∀ {r : MethodRef}, r.Qualified → 40 ∉ r.place ++ 46 :: r.name := by
    intro r hr hmem
    rcases List.mem_append.mp hmem with hplace | hname
    · exact hr.not_mem_place hplace
    · rcases List.mem_cons.mp hname with hdot | hname
      · exact absurd hdot (by decide)
      · exact hr.name hname
  -- the first parenthesis ends the name, and the last dot before it the owner
  rw [hparts m rest hrest, hparts m' rest' hrest'] at htext
  obtain ⟨hnames, htail⟩ := Bytes.append_cons_inj (hfront h) (hfront h') htext
  obtain ⟨hplace, hname⟩ := Bytes.append_cons_inj_last h.undotted h'.undotted hnames
  obtain ⟨howner, hstatic⟩ := (h.place_eq_iff h').mp hplace
  have hsignature : m.signature = m'.signature := by rw [hrest, hrest', htail]
  obtain ⟨owner, name, signature, isStatic⟩ := m
  obtain ⟨owner', name', signature', isStatic'⟩ := m'
  exact MethodRef.mk.injEq .. ▸ ⟨howner, hname, hsignature, hstatic⟩

end MethodRef

/-! ## Hexadecimal numerals -/

namespace Numeral

/-- A hexadecimal digit. -/
def hexDigit (n : Nat) : UInt8 :=
  Bytes.ofChar n.digitChar

/-- Different numbers have different digits. -/
theorem hexDigit_inj : ∀ n < 16, ∀ m < 16, hexDigit n = hexDigit m → n = m := by
  decide

/-- A number below sixteen is written with one digit. -/
theorem hex_of_lt {n : Nat} (h : n < 16) : hex n = [hexDigit n] := by
  rw [hex, Nat.toDigits_of_lt_base h]
  rfl

/-- The last digit of another number follows the digits of the rest. -/
theorem hex_of_le {n : Nat} (h : 16 ≤ n) : hex n = hex (n / 16) ++ [hexDigit (n % 16)] := by
  rw [hex, Nat.toDigits_of_base_le (by decide) h, List.map_append]
  rfl

/-- A number is never written with no digits. -/
theorem hex_ne_nil (n : Nat) : hex n ≠ [] := by
  rw [hex, ne_eq, List.map_eq_nil_iff]
  exact Nat.toDigits_ne_nil

/-- Different numbers have different hexadecimal numerals. -/
theorem hex_inj {n m : Nat} (h : hex n = hex m) : n = m := by
  induction n using Nat.strongRecOn generalizing m with
  | ind n ih =>
    have hshort : ∀ {k l : Nat}, k < 16 → 16 ≤ l → hex k ≠ hex l := by
      intro k l hk hl heq
      rw [hex_of_lt hk, hex_of_le hl] at heq
      have hlength := congrArg List.length heq
      have hpos := List.length_pos_iff.mpr (hex_ne_nil (l / 16))
      rw [List.length_append, List.length_singleton, List.length_singleton] at hlength
      omega
    by_cases hn : n < 16
    · by_cases hm : m < 16
      · rw [hex_of_lt hn, hex_of_lt hm] at h
        exact hexDigit_inj n hn m hm (List.singleton_inj.mp h)
      · exact absurd h (hshort hn (by omega))
    · by_cases hm : m < 16
      · exact absurd h.symm (hshort hm (by omega))
      · rw [hex_of_le (by omega), hex_of_le (n := m) (by omega)] at h
        obtain ⟨hfront, hlast⟩ := List.append_inj' h rfl
        have hdiv := ih (n / 16) (by omega) hfront
        have hmod := hexDigit_inj (n % 16) (by omega) (m % 16) (by omega)
          (List.singleton_inj.mp hlast)
        omega

end Numeral

/-! ## Findings -/

namespace Finding

/-- Whatever a visit finds is in a method and about a called method. -/
theorem isSome_of_mem_visit {classes : List ClassFile.Class} {options : ObligationOptions}
    {c : ClassFile.Class} {f : Finding}
    (hf : f ∈ (ReturnCheck.visit c (Session.start classes options)).1.1) :
    f.method.isSome ∧ f.called.isSome := by
  rw [ReturnCheck.visit_start_outcome, ReturnCheck.classOutcome, List.mem_flatMap] at hf
  obtain ⟨m, -, hf⟩ := hf
  unfold ReturnCheck.methodOutcome at hf
  split at hf
  · split at hf
    · cases hf
    · obtain ⟨d, -, hfinding⟩ := List.mem_filterMap.mp hf
      obtain ⟨call, -, hfinding⟩ := Option.bind_eq_some_iff.mp hfinding
      obtain ⟨-, hfinding⟩ := Option.ite_none_right_eq_some.mp hfinding
      cases hfinding
      exact ⟨rfl, rfl⟩
  · cases hf

/-- A finding with a method and a called method, in texts that can be told apart: none of those in
front of the called method has a zero byte, and names and descriptors are as class files have
them. -/
structure Readable (f : Finding) : Prop where
  /-- The pattern has no zero byte. -/
  pattern : 0 ∉ f.pattern
  /-- The class has no zero byte. -/
  className : 0 ∉ f.className
  /-- The method is known, and has no zero byte in its name and descriptor. -/
  method : ∃ m, f.method = some m ∧ m.Parenthesized ∧ 0 ∉ m.name ∧ 0 ∉ m.signature
  /-- The called method is known. -/
  called : ∃ m, f.called = some m ∧ m.Qualified

/-- Whether two findings are the same defect: they have the pattern, the class, the name and
descriptor of the method and the called method in common. -/
def SameDefect (f g : Finding) : Prop :=
  f.pattern = g.pattern ∧ f.className = g.className ∧
    f.method.map (fun m => (m.name, m.signature)) = g.method.map (fun m => (m.name, m.signature)) ∧
    f.called = g.called

/-- The hashed text can be read in one way only. -/
theorem Readable.identity_eq_iff {f g : Finding} (hf : f.Readable) (hg : g.Readable) :
    f.identity = g.identity ↔ f.SameDefect g := by
  obtain ⟨m, hm, hmkey, hmname, hmsignature⟩ := hf.method
  obtain ⟨m', hm', hmkey', hmname', hmsignature'⟩ := hg.method
  obtain ⟨c, hc, hctext⟩ := hf.called
  obtain ⟨c', hc', hctext'⟩ := hg.called
  have hkey : 0 ∉ m.key := fun h => (List.mem_append.mp h).elim hmname hmsignature
  have hkey' : 0 ∉ m'.key := fun h => (List.mem_append.mp h).elim hmname' hmsignature'
  simp only [SameDefect, hm, hm', hc, hc', Option.map_some, Option.some.injEq, Prod.mk.injEq]
  rw [← hmkey.key_eq_iff hmkey', ← hctext.text_eq_iff hctext']
  simp only [identity, hm, hm', hc, hc', List.append_assoc, List.cons_append]
  constructor
  · intro h
    obtain ⟨hpattern, h⟩ := Bytes.append_cons_inj hf.pattern hg.pattern h
    obtain ⟨hclass, h⟩ := Bytes.append_cons_inj hf.className hg.className h
    obtain ⟨hmethod, hcalled⟩ := Bytes.append_cons_inj hkey hkey' h
    exact ⟨hpattern, hclass, hmethod, hcalled⟩
  · rintro ⟨hpattern, hclass, hmethod, hcalled⟩
    rw [hpattern, hclass, hmethod, hcalled]

/-- Findings have the same hash when the same number comes out for their texts. -/
theorem computeHash_eq_iff (f g : Finding) :
    f.computeHash = g.computeHash ↔
      HighwayHash.hash f.identity = HighwayHash.hash g.identity := by
  constructor
  · intro h
    exact UInt64.toNat_inj.mp (Numeral.hex_inj h)
  · intro h
    rw [computeHash, computeHash, h]

/-- The hashed texts of two readable findings are the same exactly when the findings are the same
defect, whatever else they say. So their hashes are the same exactly then, or when the hash function
gives one number for two different texts. -/
theorem same_hash_iff_same_defect {f g : Finding} (hf : f.Readable) (hg : g.Readable) :
    (f.identity = g.identity ↔ f.SameDefect g) ∧
      (f.computeHash = g.computeHash ↔ f.SameDefect g ∨ (f.identity ≠ g.identity ∧
        HighwayHash.hash f.identity = HighwayHash.hash g.identity)) := by
  have hidentity := hf.identity_eq_iff hg
  refine ⟨hidentity, ?_⟩
  rw [computeHash_eq_iff, ← hidentity]
  constructor
  · intro hhash
    by_cases hsame : f.identity = g.identity
    · exact .inl hsame
    · exact .inr ⟨hsame, hhash⟩
  · rintro (hsame | ⟨-, hhash⟩)
    · rw [hsame]
    · exact hhash

/-- A finding about a static call. -/
private def droppedCall : Finding where
  pattern := "RV_RETURN_VALUE_IGNORED"
  priority := 2
  className := "p.A"
  method := some ⟨"p.A", "run", "()V", false⟩
  pc := 7
  line := 3
  called := some ⟨"static.Pool", "trim", "(I)I", true⟩

/-- The same finding after an edit, reported under another owner and suppressed. -/
private def droppedCallLater : Finding :=
  { droppedCall with
    priority := 5
    method := some ⟨"p.Base", "run", "()V", true⟩
    pc := 40
    line := 12
    note := "METHOD_CALLED"
    suppressed := true
    suppressReason := "reviewed" }

/-- The same place with a call of the instance method of that name. -/
private def droppedInstanceCall : Finding :=
  { droppedCall with called := some ⟨"static.Pool", "trim", "(I)I", false⟩ }

private theorem readable_droppedCall : droppedCall.Readable where
  pattern := by decide
  className := by decide
  method := ⟨_, rfl, ⟨by decide, by decide⟩, by decide, by decide⟩
  called := ⟨_, rfl, ⟨⟨by decide, by decide⟩, by decide, by decide, by decide⟩⟩

/-- Place, priority, owner and suppression do not matter, but whether the called method is static
does. -/
theorem same_hash_iff_same_defect_droppedCall :
    droppedCall.Readable ∧ droppedCallLater.Readable ∧ droppedInstanceCall.Readable ∧
      droppedCall.computeHash = droppedCallLater.computeHash ∧
      droppedCall.identity ≠ droppedInstanceCall.identity := by
  have hlater : droppedCallLater.Readable :=
    { readable_droppedCall with
      method := ⟨_, rfl, ⟨by decide, by decide⟩, by decide, by decide⟩ }
  have hinstance : droppedInstanceCall.Readable :=
    { readable_droppedCall with
      called := ⟨_, rfl, ⟨⟨by decide, by decide⟩, by decide, by decide, by decide⟩⟩ }
  refine ⟨readable_droppedCall, hlater, hinstance, ?_, ?_⟩
  · have hsame : droppedCall.SameDefect droppedCallLater := ⟨rfl, rfl, rfl, rfl⟩
    exact (same_hash_iff_same_defect readable_droppedCall hlater).2.mpr (.inl hsame)
  · intro hidentity
    have hsame := (same_hash_iff_same_defect readable_droppedCall hinstance).1.mp hidentity
    exact absurd hsame.2.2.2 (by decide)

end Finding

end ReturnAudit
