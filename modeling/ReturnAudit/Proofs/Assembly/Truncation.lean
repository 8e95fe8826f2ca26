import ReturnAudit.Proofs.Assembly.RoundTrip
import ReturnAudit.Proofs.ClassFile.Extent

/-!
# Class files that are cut short

Whatever follows the extent of a class file is not looked at, and nothing shorter than the extent is
accepted. The extent of an encoded class file is the whole of it, so no proper beginning of one is a
class file.
-/

namespace ReturnAudit.Assembly

open ClassFile (Extent Reads)

/-- An encoded class file is read to its end. -/
theorem reads_encode {c : Class} {data : Bytes} (h : encode c = .ok data) (hfits : Fits c) :
    ∃ k, Reads 0 ClassFile.readClass data k := by
  obtain ⟨body, hbody, rfl⟩ := of_encode h
  obtain ⟨hgrown, hmeans⟩ := emits_body hfits _ _ _ PoolBuilder.sound_empty hbody
  have hresolves := PoolBuilder.resolves_finished hgrown.sound hfits.poolSize
  obtain ⟨k, -, hreads⟩ := hmeans _ _ hresolves (.refl _)
  exact ⟨k, reads_readClass hgrown.sound hfits.poolSize hfits.texts hreads⟩

/-- Reading a class file depends on exactly the bytes of its extent, and the extent of an encoded
class file is the whole of it. -/
theorem parse_depends_on_extent :
    (∀ data k, ClassFile.parse data = .ok k → ∃! n, Extent data k n) ∧
    ∀ c data, encode c = .ok data → Fits c →
      ∃ k, ClassFile.parse data = .ok k ∧ Extent data k data.length := by
  refine ⟨?_, ?_⟩
  · intro data k h
    obtain ⟨n, hn⟩ := ClassFile.exists_extent h
    exact ⟨n, hn, fun n' hn' => hn.eq_of_extent hn'⟩
  · intro c data h hfits
    obtain ⟨k, hk⟩ := reads_encode h hfits
    have hextent : Extent data k data.length := by
      simpa only [List.append_nil] using Extent.of_reads hk []
    exact ⟨k, hextent.accepted data rfl, hextent⟩

/-- The guarded class is still read with a byte behind it, and not without its last byte. -/
theorem parse_depends_on_extent_guarded : Fits guarded ∧ ∃ data k, encode guarded = .ok data ∧
    (∃! n, Extent data k n) ∧ ClassFile.parse (data ++ [0]) = .ok k ∧
    ∃ e, ClassFile.parse data.dropLast = .error e := by
  have hguarded : (encode guarded).toOption.isSome = true ∧ Fits guarded := by decide +kernel
  obtain ⟨data, hdata⟩ := exists_encode hguarded.1
  obtain ⟨k, hk, hextent⟩ := parse_depends_on_extent.2 guarded data hdata hguarded.2
  have hne : data ≠ [] := by
    rintro rfl
    cases hk
  refine ⟨hguarded.2, data, k, hdata, parse_depends_on_extent.1 data k hk, ?_, ?_⟩
  · exact hextent.accepted (data ++ [0]) (by simp)
  · rw [List.dropLast_eq_take]
    exact hextent.rejected _ (Nat.sub_lt (List.length_pos_iff.mpr hne) Nat.one_pos)

end ReturnAudit.Assembly
