import Mathlib.Data.List.Basic
import ReturnAudit.ClassPath.Load
import ReturnAudit.Proofs.Text.Cuts

/-!
# Names of files and their locations

Whether a file can hold classes, and whether it is an archive, is told from the text of its
location. Both only depend on the last name of the file: a location that leads to a file ends with
the name of the file, and a file that is found below a directory is known by a text that ends so.
-/

namespace ReturnAudit

/-- What ends a list ends with the last element of the list. -/
theorem getLast?_of_suffix {α : Type} {s l : List α} (h : s <:+ l) (hne : s ≠ []) :
    l.getLast? = s.getLast? := by
  obtain ⟨before, rfl⟩ := h
  exact List.getLast?_append_of_ne_nil before hne

/-- Whether a text is a name or ends with a slash and the name. -/
def EndsIn (text name : Bytes) : Prop :=
  text = name ∨ ∃ outer, text = outer ++ 47 :: name

namespace EndsIn

/-- What ends in a text that ends in a name ends in the name. -/
theorem trans {text middle name : Bytes} (h : EndsIn text middle) (h' : EndsIn middle name) :
    EndsIn text name := by
  rcases h with rfl | ⟨outer, rfl⟩
  · exact h'
  · rcases h' with rfl | ⟨inner, rfl⟩
    · exact .inr ⟨outer, rfl⟩
    · exact .inr ⟨outer ++ 47 :: inner, by simp⟩

/-- An ending without slashes is an ending of the last name. -/
theorem isSuffixOf_eq {text name ending : Bytes} (h : EndsIn text name) (hending : 47 ∉ ending) :
    ending.isSuffixOf text = ending.isSuffixOf name := by
  rcases h with rfl | ⟨outer, rfl⟩
  · rfl
  rw [Bool.eq_iff_iff, List.isSuffixOf_iff_suffix, List.isSuffixOf_iff_suffix]
  constructor
  · intro hsuffix
    have hname : 47 :: name <:+ outer ++ 47 :: name := List.suffix_append outer _
    rcases List.suffix_or_suffix_of_suffix hname hsuffix with hlonger | hshorter
    · exact absurd (hlonger.subset List.mem_cons_self) hending
    · rcases List.suffix_cons_iff.mp hshorter with heq | hsuffix
      · exact absurd (heq ▸ List.mem_cons_self) hending
      · exact hsuffix
  · intro hsuffix
    exact hsuffix.trans ((List.suffix_cons 47 name).trans (List.suffix_append outer _))

/-- A text ends in what is left without the slashes in front. -/
theorem dropWhile_isSlash (text : Bytes) : EndsIn text (text.dropWhile Location.isSlash) := by
  induction text with
  | nil => exact .inl rfl
  | cons b text ih =>
    rw [List.dropWhile_cons]
    split
    · rename_i hb
      obtain rfl : b = 47 := of_decide_eq_true hb
      exact trans (.inr ⟨[], rfl⟩) ih
    · exact .inl rfl

end EndsIn

namespace Bytes

/-- Splitting always gives a piece. -/
theorem splitOn_ne_nil (sep : UInt8) (s : Bytes) : splitOn sep s ≠ [] := by
  induction s with
  | nil => exact List.cons_ne_nil _ _
  | cons b s ih =>
    rw [splitOn]
    split
    · exact List.cons_ne_nil _ _
    · split <;> exact List.cons_ne_nil _ _

/-- The pieces of a text make up the text. -/
theorem join_splitOn (sep : UInt8) (s : Bytes) : join [sep] (splitOn sep s) = s := by
  induction s with
  | nil => rfl
  | cons b s ih =>
    obtain ⟨piece, pieces, hsplit⟩ := List.exists_cons_of_ne_nil (splitOn_ne_nil sep s)
    rw [splitOn, hsplit]
    rw [hsplit] at ih
    by_cases hb : b = sep
    · rw [if_pos hb, hb, join, ih]
      · rfl
      · exact fun h => absurd h (List.cons_ne_nil _ _)
    · rw [if_neg hb]
      cases pieces with
      | nil => exact congrArg (b :: ·) ih
      | cons piece' pieces => exact congrArg (b :: ·) ih

/-- Names joined by slashes end in the last one. -/
theorem endsIn_join {pieces : List Bytes} {name : Bytes} (h : pieces.getLast? = some name) :
    EndsIn (join [47] pieces) name := by
  induction pieces with
  | nil => cases h
  | cons piece pieces ih =>
    cases pieces with
    | nil =>
      cases h
      exact .inl rfl
    | cons piece' pieces =>
      rw [List.getLast?_cons_cons] at h
      exact EndsIn.trans (.inr ⟨piece, by simp [join]⟩) (ih h)

/-- A text ends in its last piece. -/
theorem endsIn_of_splitOn {s name : Bytes} (h : (splitOn 47 s).getLast? = some name) :
    EndsIn s name := by
  have hends := endsIn_join h
  rwa [join_splitOn] at hends

end Bytes

/-- The text of a path below a location ends in the last name. -/
theorem Path.endsIn_below {path : Path} {name : Bytes} (location : Bytes)
    (h : path.getLast? = some name) : EndsIn (Path.below location path) name := by
  obtain ⟨outer, rfl⟩ := List.getLast?_eq_some_iff.mp h
  refine .inr ⟨Path.below location outer, ?_⟩
  rw [Path.below, List.foldl_append, List.foldl_cons, List.foldl_nil, List.append_assoc]
  rfl

/-! ## Locations -/

namespace Location

/-- Only slashes in front are dropped from a text that does not end with one. -/
theorem pathText_eq {text : Bytes} (hlast : text.getLast? ≠ some 47) :
    pathText text = [] ∨ pathText text = 47 :: text.dropWhile isSlash := by
  have hkept : ((text.dropWhile isSlash).reverse.dropWhile isSlash).reverse =
      text.dropWhile isSlash := by
    rw [List.reverse_eq_iff]
    cases hreverse : (text.dropWhile isSlash).reverse with
    | nil => rfl
    | cons b s =>
      have hne : text.dropWhile isSlash ≠ [] := by
        intro hnil
        rw [hnil] at hreverse
        cases hreverse
      have hb : b ≠ 47 := by
        rintro rfl
        rw [getLast?_of_suffix (List.dropWhile_suffix isSlash) hne, ← List.head?_reverse,
          hreverse] at hlast
        exact hlast rfl
      exact List.dropWhile_cons_of_neg (by simpa [isSlash] using hb)
  unfold pathText
  rw [hkept]
  cases text.dropWhile isSlash with
  | nil => exact .inl rfl
  | cons b s => exact .inr rfl

/-- What follows a host is empty or starts with a slash. -/
private theorem drop_host (rest : Bytes) :
    rest.drop (rest.takeWhile fun b => !isSlash b).length = [] ∨
      ∃ tail, rest.drop (rest.takeWhile fun b => !isSlash b).length = 47 :: tail := by
  have hdrop : rest.drop (rest.takeWhile fun b => !isSlash b).length =
      rest.dropWhile fun b => !isSlash b := by
    have hparts := @List.takeWhile_append_dropWhile _ (fun b => !isSlash b) rest
    calc rest.drop (rest.takeWhile fun b => !isSlash b).length
        = ((rest.takeWhile fun b => !isSlash b) ++ rest.dropWhile fun b => !isSlash b).drop
            (rest.takeWhile fun b => !isSlash b).length := by rw [hparts]
      _ = rest.dropWhile fun b => !isSlash b := List.drop_left
  rw [hdrop]
  have hhead := List.head?_dropWhile_not (fun b => !isSlash b) rest
  cases htail : rest.dropWhile fun b => !isSlash b with
  | nil => exact .inl rfl
  | cons b tail =>
    rw [htail] at hhead
    obtain rfl : b = 47 := by simpa [isSlash] using hhead
    exact .inr ⟨tail, rfl⟩

/-- A text that does not end with a slash ends in the path of its location, without the slash in
front. -/
theorem endsIn_ofText {text path : Bytes} (hlast : text.getLast? ≠ some 47)
    (h : (ofText text).path = 47 :: path) : EndsIn text path := by
  unfold ofText at h
  split at h
  · rcases pathText_eq hlast with hnil | hpath
    · rw [hnil] at h
      cases h
    · rw [hpath] at h
      exact (List.cons.inj h).2 ▸ EndsIn.dropWhile_isSlash text
  · rename_i scheme marked hcut
    dsimp only at h
    rcases drop_host (marked.drop schemeMark.length) with hnil | ⟨tail, htail⟩
    · rw [hnil] at h
      cases h
    rw [htail] at h
    have hsuffix : 47 :: tail <:+ text := by
      rw [← htail]
      exact (List.drop_suffix _ _).trans
        ((List.drop_suffix _ _).trans (Bytes.suffix_of_cutInfix hcut))
    rw [getLast?_of_suffix hsuffix (List.cons_ne_nil _ _)] at hlast
    obtain ⟨before, rfl⟩ := hsuffix
    rcases pathText_eq hlast with hnil | hpath
    · rw [hnil] at h
      cases h
    · rw [hpath, List.dropWhile_cons_of_pos rfl] at h
      exact (List.cons.inj h).2 ▸ EndsIn.trans (.inr ⟨before, rfl⟩) (EndsIn.dropWhile_isSlash tail)

/-- The path of a location is empty or starts with a slash. -/
theorem path_ofText (text : Bytes) :
    (ofText text).path = [] ∨ ∃ path, (ofText text).path = 47 :: path := by
  have hpath : ∀ s, pathText s = [] ∨ ∃ path, pathText s = 47 :: path := by
    intro s
    unfold pathText
    split
    · exact .inl rfl
    · exact .inr ⟨_, rfl⟩
  unfold ofText
  split <;> exact hpath _

/-- A text that does not end with a slash ends in the last name on the way to its location. -/
theorem endsIn_of_names? {text : Bytes} {names : List Bytes} (hlast : text.getLast? ≠ some 47)
    (h : (ofText text).names? = some names) :
    ∃ name, names.getLast? = some name ∧ EndsIn text name := by
  unfold names? at h
  split at h
  · rename_i hfile
    rcases path_ofText text with hnil | ⟨path, hpath⟩
    · simp [hnil] at hfile
    cases h
    rw [hpath, Bytes.splitOn, if_pos rfl]
    cases hname : (Bytes.splitOn 47 path).getLast? with
    | none => exact absurd (List.getLast?_eq_none_iff.mp hname) (Bytes.splitOn_ne_nil 47 path)
    | some name =>
      refine ⟨name, ?_, (endsIn_ofText hlast hpath).trans (Bytes.endsIn_of_splitOn hname)⟩
      rw [List.getLast?_cons, hname]
      rfl
  · cases h

end Location

namespace Workspace

/-- A way that leads to a file ends with the name of the file. -/
theorem getLast?_of_follow {w : Workspace} {p q : Path} {names : List Bytes} {name content : Bytes}
    (h : w.follow p names = (q, .file content)) (hname : names.getLast? = some name)
    (hnext : ∀ p : Path, p.next name = p ++ [name]) : q.getLast? = some name := by
  induction names generalizing p with
  | nil => cases hname
  | cons first rest ih =>
    rw [follow] at h
    split at h
    · cases rest with
      | nil =>
        obtain rfl : first = name := Option.some.inj hname
        rw [follow, hnext] at h
        rw [← (Prod.mk.inj h).1, List.getLast?_concat]
      | cons second rest => exact ih h (by rwa [List.getLast?_cons_cons] at hname)
    all_goals cases h

end Workspace

namespace ClassPath

/-- Whether a text names a class file is told from the name it ends in. -/
theorem isClassName_eq {text name : Bytes} (h : EndsIn text name) :
    isClassName text = isClassName name :=
  h.isSuffixOf_eq (by decide)

/-- Whether a text names an archive is told from the name it ends in. -/
theorem isArchiveName_eq {text name : Bytes} (h : EndsIn text name) :
    isArchiveName text = isArchiveName name := by
  rw [isArchiveName, isArchiveName, h.isSuffixOf_eq (by decide), h.isSuffixOf_eq (by decide)]

/-- Whether a text names a file that can hold classes is told from the name it ends in. -/
theorem isLoadableName_eq {text name : Bytes} (h : EndsIn text name) :
    isLoadableName text = isLoadableName name := by
  rw [isLoadableName, isLoadableName, isClassName_eq h, isArchiveName_eq h]

/-- The name of a class file ends with the letter s. -/
theorem getLast?_of_isClassName {name : Bytes} (h : isClassName name = true) :
    name.getLast? = some 115 :=
  getLast?_of_suffix (List.isSuffixOf_iff_suffix.mp h) (by decide)

/-- The name of an archive ends with the letter r or p. -/
theorem getLast?_of_isArchiveName {name : Bytes} (h : isArchiveName name = true) :
    name.getLast? = some 114 ∨ name.getLast? = some 112 := by
  rcases Bool.or_eq_true_iff.mp h with h | h
  · exact .inl (getLast?_of_suffix (List.isSuffixOf_iff_suffix.mp h) (by decide))
  · exact .inr (getLast?_of_suffix (List.isSuffixOf_iff_suffix.mp h) (by decide))

/-- A class file is no archive. -/
theorem isArchiveName_of_isClassName {name : Bytes} (h : isClassName name = true) :
    isArchiveName name = false := by
  refine Bool.eq_false_iff.mpr fun harchive => ?_
  rcases getLast?_of_isArchiveName harchive with hlast | hlast <;>
    rw [getLast?_of_isClassName h] at hlast <;> cases hlast

/-- A location that leads to a file with classes ends with the name of the file. -/
theorem endsIn_of_find {w : Workspace} {text content : Bytes} {q : Path}
    (hloadable : isLoadableName text = true)
    (h : w.find (Location.ofText text) = (q, .file content)) :
    ∃ name, q.getLast? = some name ∧ EndsIn text name := by
  have hlast : text.getLast? ≠ some 47 := by
    intro hslash
    rcases Bool.or_eq_true_iff.mp hloadable with hclass | harchive
    · rw [getLast?_of_isClassName hclass] at hslash
      cases hslash
    · rcases getLast?_of_isArchiveName harchive with hlast | hlast <;>
        rw [hlast] at hslash <;> cases hslash
  unfold Workspace.find at h
  split at h
  · rename_i names hnames
    obtain ⟨name, hname, hends⟩ := Location.endsIn_of_names? hlast hnames
    refine ⟨name, Workspace.getLast?_of_follow h hname fun p => ?_, hends⟩
    -- a name that leads nowhere or back is not that of a file with classes
    rw [isLoadableName_eq hends] at hloadable
    have hempty : name ≠ [] := by rintro rfl; cases hloadable
    have hdot : name ≠ Bytes.ofString "." := by rintro rfl; cases hloadable
    have hback : name ≠ Bytes.ofString ".." := by rintro rfl; cases hloadable
    simp [Path.next, hempty, hdot, hback]
  · cases h

end ClassPath

end ReturnAudit
