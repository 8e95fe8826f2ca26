import ReturnAudit.ClassFile.Code
import ReturnAudit.Proofs.StableSort

/-!
# Looking up source lines

The entries of all line tables of a body are sorted by position and searched by halving. What is
found is said of the tables in the order in which they stand: the line of the entry that starts
latest at or before the position, and of several such entries that of the last one.
-/

namespace ReturnAudit.ClassFile

namespace LineNumber

/-- Halving keeps the entries that start too late on the right and the others on the left. -/
theorem search_spec {lines : Array LineNumber} (pc : Int) {lo hi : Nat}
    (hsorted : lines.toList.Pairwise fun a b => a.startPc ≤ b.startPc)
    (hle : lo ≤ hi) (hsize : hi ≤ lines.size)
    (hleft : ∀ e ∈ lines.toList.take lo, e.startPc ≤ pc)
    (hright : ∀ e ∈ lines.toList.drop hi, pc < e.startPc) :
    search lines pc lo hi ≤ hi ∧
      (∀ e ∈ lines.toList.take (search lines pc lo hi), e.startPc ≤ pc) ∧
      ∀ e ∈ lines.toList.drop (search lines pc lo hi), pc < e.startPc := by
  fun_induction search lines pc lo hi with
  | case1 lo hi hlt mid entry hentry hlate ih =>
    -- the entry in the middle starts too late, and so do all behind it
    refine (ih (by omega) (by omega) hleft ?_).imp_left fun hbound => by omega
    have hmid : lines.toList[mid]? = some entry := Array.getElem?_toList.trans hentry
    have hdrop : lines.toList.drop mid = entry :: lines.toList.drop (mid + 1) := by
      obtain ⟨hbound, rfl⟩ := List.getElem?_eq_some_iff.mp hmid
      exact List.drop_eq_getElem_cons hbound
    have hpairs := hsorted.sublist (List.drop_sublist mid lines.toList)
    rw [hdrop, List.pairwise_cons] at hpairs
    rw [hdrop]
    intro e he
    rcases List.mem_cons.mp he with rfl | he
    · exact hlate
    · exact Int.lt_of_lt_of_le hlate (hpairs.1 e he)
  | case2 lo hi hlt mid entry hentry hearly ih =>
    -- the entry in the middle has started, and so have all before it
    refine ih (by omega) (by omega) ?_ hright
    have hmid : lines.toList[mid]? = some entry := Array.getElem?_toList.trans hentry
    have htake : lines.toList.take (mid + 1) = lines.toList.take mid ++ [entry] := by
      rw [List.take_add_one, hmid, Option.toList_some]
    have hpairs := hsorted.sublist (List.take_sublist (mid + 1) lines.toList)
    rw [htake, List.pairwise_append] at hpairs
    rw [htake]
    intro e he
    have hentryLe : entry.startPc ≤ pc := Int.not_lt.mp hearly
    rcases List.mem_append.mp he with he | he
    · exact Int.le_trans (hpairs.2.2 e he entry List.mem_cons_self) hentryLe
    · rwa [List.mem_singleton.mp he]
  | case3 lo hi hlt mid hnone ih =>
    have hbound : lines.size ≤ mid := Array.getElem?_eq_none_iff.mp hnone
    omega
  | case4 lo hi hlt =>
    obtain rfl : lo = hi := by omega
    exact ⟨Nat.le_refl _, hleft, hright⟩

/-- In a sorted table the line at a position is that of the last entry that starts at or before
it. -/
theorem lineAt_toArray {lines : List LineNumber}
    (hsorted : lines.Pairwise fun a b => a.startPc ≤ b.startPc) (pc : Int) :
    lineAt lines.toArray pc =
      (((lines.filter fun e => e.startPc ≤ pc).getLast?).map LineNumber.line).getD 0 := by
  have hwhole : lines.toArray.toList.Pairwise fun a b => a.startPc ≤ b.startPc := hsorted
  obtain ⟨hbound, hleft, hright⟩ := search_spec pc hwhole (Nat.zero_le _) (Nat.le_refl _)
    (by simp) (by simp)
  unfold lineAt
  generalize search lines.toArray pc 0 lines.toArray.size = r at hbound hleft hright
  have hfilter : (lines.filter fun e => e.startPc ≤ pc) = lines.take r := by
    conv_lhs => rw [← List.take_append_drop r lines]
    rw [List.filter_append, List.filter_eq_self.mpr, List.filter_eq_nil_iff.mpr, List.append_nil]
    · intro e he
      simpa using hright e he
    · intro e he
      simpa using hleft e he
  rw [hfilter]
  cases r with
  | zero => rfl
  | succ i =>
    have hi : i < lines.length := hbound
    have hlast : (lines.take (i + 1)).getLast? = lines[i]? := by
      rw [List.take_add_one, List.getElem?_eq_getElem hi, Option.toList_some, List.getLast?_concat]
    simp only [hlast, List.getElem?_toArray]

end LineNumber

/-- Whether a position has a source line in a list of entries, which stand in any order and can
repeat positions. -/
inductive LineIn (entries : List LineNumber) (pc : Int) : Int → Prop
  /-- Every entry starts later. -/
  | uncovered (late : ∀ e ∈ entries, pc < e.startPc) : LineIn entries pc 0
  /-- Of the entries that start at the position or before it, none starts later than `e`, and none
  behind `e` starts with it. -/
  | covered (before : List LineNumber) (e : LineNumber) (after : List LineNumber)
      (split : entries = before ++ e :: after) (early : e.startPc ≤ pc)
      (before_le : ∀ x ∈ before, x.startPc ≤ pc → x.startPc ≤ e.startPc)
      (after_lt : ∀ x ∈ after, x.startPc ≤ pc → x.startPc < e.startPc) : LineIn entries pc e.line

/-- A position has one source line. -/
theorem LineIn.unique {entries : List LineNumber} {pc line line' : Int}
    (h : LineIn entries pc line) (h' : LineIn entries pc line') : line = line' := by
  cases h with
  | uncovered late =>
    cases h' with
    | uncovered _ => rfl
    | covered before e after split early =>
      have hlate := late e (by simp [split])
      omega
  | covered before e after split early hbefore hafter =>
    cases h' with
    | uncovered late =>
      have hlate := late e (by simp [split])
      omega
    | covered before' e' after' split' early' hbefore' hafter' =>
      -- the entry that stands first would start before the other one and not before it
      rcases List.append_eq_append_iff.mp (split.symm.trans split') with
        ⟨m, rfl, hm⟩ | ⟨m, rfl, hm⟩
      · cases m with
        | nil => exact congrArg LineNumber.line (List.cons.inj hm).1
        | cons x m =>
          obtain ⟨rfl, rfl⟩ := List.cons.inj hm
          have hlt := hafter e' (by simp) early'
          have hle := hbefore' e (by simp) early
          omega
      · cases m with
        | nil => exact (congrArg LineNumber.line (List.cons.inj hm).1).symm
        | cons x m =>
          obtain ⟨rfl, rfl⟩ := List.cons.inj hm
          have hlt := hafter' e (by simp) early
          have hle := hbefore e' (by simp) early'
          omega

/-- The sorted table gives each position the line that the tables have for it in the order of the
class file. -/
theorem lineIn_sortLines (tables : List (List LineNumber)) (pc : Int) :
    LineIn tables.flatten pc (LineNumber.lineAt (sortLines tables) pc) := by
  let le : LineNumber → LineNumber → Bool := fun a b => a.startPc ≤ b.startPc
  have trans : ∀ a b c, le a b → le b c → le a c := by
    intro a b c hab hbc
    exact decide_eq_true (Int.le_trans (of_decide_eq_true hab) (of_decide_eq_true hbc))
  have total : ∀ a b, le a b || le b a := by
    intro a b
    rcases Int.le_total a.startPc b.startPc with h | h <;> simp [le, h]
  have hsorted := (List.pairwise_mergeSort trans total tables.flatten).imp
    fun {a b} h => (of_decide_eq_true h : a.startPc ≤ b.startPc)
  have hline := LineNumber.lineAt_toArray hsorted pc
  rw [← mergeSort_filter trans total] at hline
  rw [sortLines, hline]
  cases hlast : ((tables.flatten.filter fun e => e.startPc ≤ pc).mergeSort le).getLast? with
  | none =>
    refine .uncovered fun e he => Int.not_le.mp fun hearly => ?_
    have hkept : e ∈ tables.flatten.filter fun e => e.startPc ≤ pc :=
      List.mem_filter.mpr ⟨he, decide_eq_true hearly⟩
    rw [← (List.mergeSort_perm _ le).mem_iff, List.getLast?_eq_none_iff.mp hlast] at hkept
    exact List.not_mem_nil hkept
  | some e =>
    obtain ⟨before, after, hsplit, hbefore, hafter⟩ :=
      exists_of_getLast?_mergeSort trans total hlast
    obtain ⟨l₁, l₂, hflat, rfl, hl₂⟩ := List.filter_eq_append_iff.mp hsplit
    obtain ⟨m, l₃, rfl, hm, hearly, rfl⟩ := List.filter_eq_cons_iff.mp hl₂
    refine .covered (l₁ ++ m) e l₃ (by rw [hflat, List.append_assoc]) (of_decide_eq_true hearly)
      ?_ ?_
    · intro x hx hxpc
      rcases List.mem_append.mp hx with hx | hx
      · exact of_decide_eq_true (hbefore x (List.mem_filter.mpr ⟨hx, decide_eq_true hxpc⟩))
      · exact absurd (decide_eq_true hxpc) (hm x hx)
    · intro x hx hxpc
      have hnot := hafter x (List.mem_filter.mpr ⟨hx, decide_eq_true hxpc⟩)
      exact Int.not_le.mp (of_decide_eq_false hnot)

end ReturnAudit.ClassFile
