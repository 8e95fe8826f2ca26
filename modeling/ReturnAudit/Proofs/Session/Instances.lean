import ReturnAudit.Symbol
import Mathlib.Data.Finset.Card
import Mathlib.Data.List.Induction

/-!
# Instances are canonical

A symbol table is asked for method references in three ways and for field references in one, and it
can be cleared at any time. Between two times it is cleared, equal references get one instance and
different references get different ones; no instance comes back after the table was cleared. The
table holds one symbol for each reference that was requested since then.
-/

namespace ReturnAudit.SymbolTable

/-- What can be asked of a symbol table. -/
inductive Request where
  /-- The instance of a method reference. -/
  | method (ref : MethodRef)
  /-- The instance of a field reference. -/
  | field (ref : FieldRef)
  /-- The instance of the method that an instruction calls. -/
  | invoked (op : Opcode) (member : Option ClassFile.MemberRef)
  /-- The instance of a method that a class declares. -/
  | declared (c : ClassFile.Class) (m : ClassFile.Method)
  /-- Forgets all instances. -/
  | clear

/-- What is handed out for a request. -/
inductive Reply where
  /-- An instance of a method reference. -/
  | method (sym : Symbol MethodRef)
  /-- An instance of a field reference. -/
  | field (sym : Symbol FieldRef)
  /-- No instance. -/
  | nothing

namespace Reply

/-- The instance of a method reference that is handed out. -/
def method? : Reply → Option (Symbol MethodRef)
  | method sym => some sym
  | _ => none

/-- The instance of a field reference that is handed out. -/
def field? : Reply → Option (Symbol FieldRef)
  | field sym => some sym
  | _ => none

end Reply

namespace Request

/-- Serves a request. -/
def run (request : Request) (t : SymbolTable) : Reply × SymbolTable :=
  match request with
  | method ref =>
    let (sym, t) := SymbolTable.method ref t
    (.method sym, t)
  | field ref =>
    let (sym, t) := SymbolTable.field ref t
    (.field sym, t)
  | invoked op member =>
    let (call, t) := SymbolTable.invoked op member t
    (match call with
      | some sym => .method sym
      | none => .nothing, t)
  | declared c m =>
    let (sym, t) := SymbolTable.method (.declared c m) t
    (.method sym, t)
  | clear => (.nothing, t.clear)

/-- The method reference that is requested. A call is told by the dotted name of its class and is
static for one opcode alone; one that names no class requests nothing. -/
def method? : Request → Option MethodRef
  | method ref => some ref
  | invoked op (some member) =>
    if member.owner = [] then none
    else some ⟨Descriptor.dotted member.owner, member.name, member.descriptor, op = .invokestatic⟩
  | declared c m => some ⟨c.name, m.name, m.descriptor, m.isStatic⟩
  | _ => none

/-- The field reference that is requested. -/
def field? : Request → Option FieldRef
  | field ref => some ref
  | _ => none

/-- Whether the table is cleared. -/
def isClear : Request → Bool
  | clear => true
  | _ => false

end Request

/-- Serves requests one after another. -/
def runAll (requests : List Request) (t : SymbolTable) : SymbolTable :=
  requests.foldl (fun t request => (request.run t).2) t

/-- The table after some requests to an empty one. -/
def after (requests : List Request) : SymbolTable :=
  runAll requests .empty

/-- The requests since the table was last cleared, the last one first. -/
def sinceClear (requests : List Request) : List Request :=
  requests.reverse.takeWhile fun request => !request.isClear

/-- One of the two sorts of references: the symbols of that sort in a table, and what is requested
and handed out of it. -/
structure Kind (α : Type) where
  /-- The symbols in a table. -/
  symbols : SymbolTable → List (Symbol α)
  /-- What a request asks for. -/
  requested? : Request → Option α
  /-- What a reply hands out. -/
  issued? : Reply → Option (Symbol α)

/-- The method references. -/
def methodKind : Kind MethodRef := ⟨SymbolTable.methods, Request.method?, Reply.method?⟩

/-- The field references. -/
def fieldKind : Kind FieldRef := ⟨SymbolTable.fields, Request.field?, Reply.field?⟩

variable {α : Type} {k : Kind α}

/-- All that serving a request can do to the symbols of one sort. -/
inductive Served (k : Kind α) (request : Request) (t : SymbolTable) (reply : Reply)
    (u : SymbolTable) : Prop
  /-- Another sort is asked for. -/
  | kept (hclear : request.isClear = false) (hnone : k.requested? request = none)
      (hreply : k.issued? reply = none) (hsame : k.symbols u = k.symbols t)
      (hnext : t.next ≤ u.next)
  /-- The reference has an instance. -/
  | found {sym : Symbol α} (hclear : request.isClear = false)
      (hsome : k.requested? request = some sym.ref) (hreply : k.issued? reply = some sym)
      (hmem : sym ∈ k.symbols t) (hsame : k.symbols u = k.symbols t) (hnext : t.next ≤ u.next)
  /-- The reference gets the next instance. -/
  | added {ref : α} (hclear : request.isClear = false) (hsome : k.requested? request = some ref)
      (hreply : k.issued? reply = some ⟨ref, t.next⟩) (hnew : ∀ sym ∈ k.symbols t, sym.ref ≠ ref)
      (hcons : k.symbols u = ⟨ref, t.next⟩ :: k.symbols t) (hnext : t.next < u.next)
  /-- All instances are forgotten. -/
  | cleared (hclear : request.isClear = true) (hnone : k.requested? request = none)
      (hreply : k.issued? reply = none) (hnil : k.symbols u = []) (hnext : t.next ≤ u.next)

/-- The four ways in which a request is served. -/
inductive Request.Outcome (request : Request) (t : SymbolTable) : Reply × SymbolTable → Prop
  | method {ref : MethodRef} (hclear : request.isClear = false)
      (hsome : request.method? = some ref) (hnone : request.field? = none) :
      request.Outcome t (.method (SymbolTable.method ref t).1, (SymbolTable.method ref t).2)
  | field {ref : FieldRef} (hclear : request.isClear = false) (hnone : request.method? = none)
      (hsome : request.field? = some ref) :
      request.Outcome t (.field (SymbolTable.field ref t).1, (SymbolTable.field ref t).2)
  | nothing (hclear : request.isClear = false) (hmethod : request.method? = none)
      (hfield : request.field? = none) : request.Outcome t (.nothing, t)
  | clear (hclear : request.isClear = true) (hmethod : request.method? = none)
      (hfield : request.field? = none) : request.Outcome t (.nothing, t.clear)

/-- Every request is served in one of the four ways. -/
theorem Request.outcome_run (request : Request) (t : SymbolTable) :
    request.Outcome t (request.run t) := by
  cases request with
  | method ref => exact .method rfl rfl rfl
  | field ref => exact .field rfl rfl rfl
  | invoked op member =>
    cases member with
    | none => exact .nothing rfl rfl rfl
    | some member =>
      by_cases howner : member.owner = []
      · have hcall : MethodRef.invoked? op (some member) = none := by
          simp only [MethodRef.invoked?, howner, List.isEmpty_nil, if_true]
        have hrun : (Request.invoked op (some member)).run t = (.nothing, t) := by
          simp only [Request.run, SymbolTable.invoked, hcall]
          rfl
        rw [hrun]
        exact .nothing rfl (if_pos howner) rfl
      · have hcall : MethodRef.invoked? op (some member) =
            some ⟨Descriptor.dotted member.owner, member.name, member.descriptor,
              op = .invokestatic⟩ := by
          simp only [MethodRef.invoked?, List.isEmpty_iff, howner, if_false]
        simp only [Request.run, SymbolTable.invoked, hcall]
        exact .method rfl (if_neg howner) rfl
  | declared c m => exact .method rfl rfl rfl
  | clear => exact .clear rfl rfl rfl

/-- Asking for a method reference leaves the field references alone. -/
theorem fields_method (ref : MethodRef) (t : SymbolTable) :
    (method ref t).2.fields = t.fields ∧ t.next ≤ (method ref t).2.next := by
  unfold method
  split
  · exact ⟨rfl, le_rfl⟩
  · exact ⟨rfl, Nat.le_succ _⟩

/-- Asking for a field reference leaves the method references alone. -/
theorem methods_field (ref : FieldRef) (t : SymbolTable) :
    (field ref t).2.methods = t.methods ∧ t.next ≤ (field ref t).2.next := by
  unfold field
  split
  · exact ⟨rfl, le_rfl⟩
  · exact ⟨rfl, Nat.le_succ _⟩

/-- This is what a request does to the method symbols. -/
theorem served_methodKind (request : Request) (t : SymbolTable) :
    Served methodKind request t (request.run t).1 (request.run t).2 := by
  have hrun := request.outcome_run t
  generalize request.run t = outcome at hrun
  cases hrun with
  | @method ref hclear hsome hnone =>
    cases hfind : t.methods.find? fun s => s.ref = ref with
    | some sym =>
      obtain rfl : sym.ref = ref := by simpa using List.find?_some hfind
      simp only [method, hfind]
      exact .found hclear hsome rfl (List.mem_of_find?_eq_some hfind) rfl le_rfl
    | none =>
      have hnew : ∀ sym ∈ t.methods, sym.ref ≠ ref := by simpa using hfind
      simp only [method, hfind]
      exact .added hclear hsome rfl hnew rfl (Nat.lt_succ_self _)
  | @field ref hclear hnone hsome =>
    exact .kept hclear hnone rfl (methods_field ref t).1 (methods_field ref t).2
  | nothing hclear hmethod hfield => exact .kept hclear hmethod rfl rfl le_rfl
  | clear hclear hmethod hfield => exact .cleared hclear hmethod rfl rfl le_rfl

/-- This is what a request does to the field symbols. -/
theorem served_fieldKind (request : Request) (t : SymbolTable) :
    Served fieldKind request t (request.run t).1 (request.run t).2 := by
  have hrun := request.outcome_run t
  generalize request.run t = outcome at hrun
  cases hrun with
  | @method ref hclear hsome hnone =>
    exact .kept hclear hnone rfl (fields_method ref t).1 (fields_method ref t).2
  | @field ref hclear hnone hsome =>
    cases hfind : t.fields.find? fun s => s.ref = ref with
    | some sym =>
      obtain rfl : sym.ref = ref := by simpa using List.find?_some hfind
      simp only [field, hfind]
      exact .found hclear hsome rfl (List.mem_of_find?_eq_some hfind) rfl le_rfl
    | none =>
      have hnew : ∀ sym ∈ t.fields, sym.ref ≠ ref := by simpa using hfind
      simp only [field, hfind]
      exact .added hclear hsome rfl hnew rfl (Nat.lt_succ_self _)
  | nothing hclear hmethod hfield => exact .kept hclear hfield rfl rfl le_rfl
  | clear hclear hmethod hfield => exact .cleared hclear hfield rfl rfl le_rfl

/-- Whether the symbols of one sort have different references and different numbers, all of them
handed out already. -/
structure Canonical (k : Kind α) (t : SymbolTable) : Prop where
  /-- No reference has two instances. -/
  refs : ((k.symbols t).map Symbol.ref).Nodup
  /-- No instance stands for two references. -/
  ids : ((k.symbols t).map Symbol.instanceId).Nodup
  /-- The next number is new. -/
  lt_next : ∀ sym ∈ k.symbols t, sym.instanceId < t.next

/-- Whether all symbols of one sort are at least as new as a number. -/
def SinceId (k : Kind α) (id : Nat) (t : SymbolTable) : Prop :=
  id ≤ t.next ∧ ∀ sym ∈ k.symbols t, id ≤ sym.instanceId

namespace Served

variable {request : Request} {t u : SymbolTable} {reply : Reply}

/-- Numbers never go back when a request is served. -/
theorem next_le (h : Served k request t reply u) : t.next ≤ u.next := by
  cases h with
  | kept _ _ _ _ hnext => exact hnext
  | found _ _ _ _ _ hnext => exact hnext
  | added _ _ _ _ _ hnext => exact hnext.le
  | cleared _ _ _ _ hnext => exact hnext

/-- What is handed out carries what was requested. -/
theorem ref_eq (h : Served k request t reply u) :
    (k.issued? reply).map Symbol.ref = k.requested? request := by
  cases h with
  | kept _ hnone hreply => rw [hnone, hreply, Option.map_none]
  | found _ hsome hreply => rw [hsome, hreply, Option.map_some]
  | added _ hsome hreply => rw [hsome, hreply, Option.map_some]
  | cleared _ hnone hreply => rw [hnone, hreply, Option.map_none]

/-- What is handed out is in the table then. -/
theorem mem_of_issued (h : Served k request t reply u) {sym : Symbol α}
    (hsym : k.issued? reply = some sym) : sym ∈ k.symbols u := by
  cases h with
  | kept _ _ hreply => cases hreply.symm.trans hsym
  | found _ _ hreply hmem hsame =>
    cases hreply.symm.trans hsym
    exact hsame ▸ hmem
  | added _ _ hreply _ hcons =>
    cases hreply.symm.trans hsym
    exact hcons ▸ List.mem_cons_self
  | cleared _ _ hreply => cases hreply.symm.trans hsym

/-- Unless the table is cleared, it keeps its symbols. -/
theorem mem_of_mem (h : Served k request t reply u) (hclear : request.isClear = false)
    {sym : Symbol α} (hsym : sym ∈ k.symbols t) : sym ∈ k.symbols u := by
  cases h with
  | kept _ _ _ hsame => exact hsame ▸ hsym
  | found _ _ _ _ hsame => exact hsame ▸ hsym
  | added _ _ _ _ hcons => exact hcons ▸ List.mem_cons_of_mem _ hsym
  | cleared hall => cases hall.symm.trans hclear

/-- Which references have an instance then. -/
theorem mem_refs_iff (h : Served k request t reply u) (ref : α) :
    ref ∈ (k.symbols u).map Symbol.ref ↔ request.isClear = false ∧
      (k.requested? request = some ref ∨ ref ∈ (k.symbols t).map Symbol.ref) := by
  cases h with
  | kept hclear hnone _ hsame => simp [hclear, hnone, hsame]
  | @found sym hclear hsome _ hmem hsame =>
    simp only [hclear, hsome, hsame, true_and, Option.some_inj, iff_or_self]
    rintro rfl
    exact List.mem_map_of_mem hmem
  | added hclear hsome _ _ hcons => simp [hclear, hsome, hcons, eq_comm]
  | cleared hclear _ _ hnil => simp [hclear, hnil]

/-- Nothing is handed out for clearing the table. -/
theorem isClear_eq_false (h : Served k request t reply u) {sym : Symbol α}
    (hsym : k.issued? reply = some sym) : request.isClear = false := by
  cases h with
  | kept hclear => exact hclear
  | found hclear => exact hclear
  | added hclear => exact hclear
  | cleared _ _ hreply => cases hreply.symm.trans hsym

/-- Serving a request keeps the symbols of a sort canonical. -/
theorem canonical (h : Served k request t reply u) (ht : Canonical k t) : Canonical k u := by
  have hold : ∀ sym ∈ k.symbols t, sym.instanceId < u.next := fun sym hsym =>
    (ht.lt_next sym hsym).trans_le h.next_le
  cases h with
  | kept _ _ _ hsame => exact ⟨hsame ▸ ht.refs, hsame ▸ ht.ids, hsame ▸ hold⟩
  | found _ _ _ _ hsame => exact ⟨hsame ▸ ht.refs, hsame ▸ ht.ids, hsame ▸ hold⟩
  | added _ _ _ hnew hcons hnext =>
    refine ⟨?_, ?_, ?_⟩
    · rw [hcons, List.map_cons, List.nodup_cons]
      refine ⟨fun hmem => ?_, ht.refs⟩
      obtain ⟨sym, hsym, href⟩ := List.mem_map.mp hmem
      exact hnew sym hsym href
    · rw [hcons, List.map_cons, List.nodup_cons]
      refine ⟨fun hmem => ?_, ht.ids⟩
      obtain ⟨sym, hsym, hid⟩ := List.mem_map.mp hmem
      exact absurd (ht.lt_next sym hsym) (hid ▸ lt_irrefl _)
    · rw [hcons, List.forall_mem_cons]
      exact ⟨hnext, hold⟩
  | cleared _ _ _ hnil =>
    refine ⟨?_, ?_, ?_⟩ <;> rw [hnil]
    · exact List.nodup_nil
    · exact List.nodup_nil
    · exact fun _ hsym => (List.not_mem_nil hsym).elim

/-- Serving a request keeps the symbols of a sort at least as new as a number. -/
theorem sinceId (h : Served k request t reply u) {id : Nat} (ht : SinceId k id t) :
    SinceId k id u := by
  refine ⟨ht.1.trans h.next_le, ?_⟩
  cases h with
  | kept _ _ _ hsame => exact hsame ▸ ht.2
  | found _ _ _ _ hsame => exact hsame ▸ ht.2
  | added _ _ _ _ hcons =>
    rw [hcons, List.forall_mem_cons]
    exact ht
  | cleared _ _ _ hnil =>
    rw [hnil]
    exact fun _ hsym => (List.not_mem_nil hsym).elim

end Served

/-- Requests and then more requests are served as one list. -/
theorem runAll_append (requests more : List Request) (t : SymbolTable) :
    runAll (requests ++ more) t = runAll more (runAll requests t) :=
  List.foldl_append

section

variable (hk : ∀ request t, Served k request t (request.run t).1 (request.run t).2)
include hk

/-- Any requests keep the symbols of a sort canonical. -/
theorem canonical_runAll (requests : List Request) {t : SymbolTable} (ht : Canonical k t) :
    Canonical k (runAll requests t) := by
  induction requests generalizing t with
  | nil => exact ht
  | cons request requests ih => exact ih ((hk request t).canonical ht)

/-- Any requests keep the symbols of a sort at least as new as a number. -/
theorem sinceId_runAll (requests : List Request) {id : Nat} {t : SymbolTable}
    (ht : SinceId k id t) : SinceId k id (runAll requests t) := by
  induction requests generalizing t with
  | nil => exact ht
  | cons request requests ih => exact ih ((hk request t).sinceId ht)

/-- Numbers never go back, whatever is requested. -/
theorem next_le_runAll (requests : List Request) (t : SymbolTable) :
    t.next ≤ (runAll requests t).next := by
  induction requests generalizing t with
  | nil => exact le_rfl
  | cons request requests ih => exact (hk request t).next_le.trans (ih _)

/-- While the table is not cleared, it keeps its symbols. -/
theorem mem_runAll {requests : List Request}
    (hclear : ∀ request ∈ requests, request.isClear = false) {t : SymbolTable} {sym : Symbol α}
    (hsym : sym ∈ k.symbols t) :
    sym ∈ k.symbols (runAll requests t) := by
  induction requests generalizing t with
  | nil => exact hsym
  | cons request requests ih =>
    rw [List.forall_mem_cons] at hclear
    exact ih hclear.2 ((hk request t).mem_of_mem hclear.1 hsym)

/-- Once the table was cleared, it has new symbols only. -/
theorem sinceId_of_isClear {requests : List Request} {request : Request}
    (hmem : request ∈ requests) (hclear : request.isClear = true) (t : SymbolTable) :
    SinceId k t.next (runAll requests t) := by
  obtain ⟨before, later, rfl⟩ := List.append_of_mem hmem
  rw [runAll_append]
  refine sinceId_runAll hk later (t := (request.run (runAll before t)).2) ?_
  have hserved := hk request (runAll before t)
  refine ⟨(next_le_runAll hk before t).trans hserved.next_le, ?_⟩
  cases hserved with
  | kept hfalse => cases hfalse.symm.trans hclear
  | found hfalse => cases hfalse.symm.trans hclear
  | added hfalse => cases hfalse.symm.trans hclear
  | cleared _ _ _ hnil =>
    rw [hnil]
    exact fun _ hsym => (List.not_mem_nil hsym).elim

/-- Two instances are the same when their references are and the table was not cleared between
them. -/
theorem instanceId_eq_iff {t : SymbolTable} (ht : Canonical k t) {first second : Request}
    {between : List Request} {sym sym' : Symbol α}
    (hsym : k.issued? (first.run t).1 = some sym)
    (hsym' : k.issued? (second.run (runAll between (first.run t).2)).1 = some sym') :
    sym.instanceId = sym'.instanceId ↔
      sym.ref = sym'.ref ∧ ∀ request ∈ between, request.isClear = false := by
  have hfirst := hk first t
  have hsecond := hk second (runAll between (first.run t).2)
  have hmem' := hsecond.mem_of_issued hsym'
  have hcanonical := hsecond.canonical (canonical_runAll hk between (hfirst.canonical ht))
  by_cases hclear : ∀ request ∈ between, request.isClear = false
  · -- both symbols are in the table at the end, where neither references nor numbers repeat
    have hmem := hsecond.mem_of_mem (hsecond.isClear_eq_false hsym')
      (mem_runAll hk hclear (hfirst.mem_of_issued hsym))
    refine ⟨fun hid => ⟨?_, hclear⟩, fun href => ?_⟩
    · rw [List.inj_on_of_nodup_map hcanonical.ids hmem hmem' hid]
    · rw [List.inj_on_of_nodup_map hcanonical.refs hmem hmem' href.1]
  · refine iff_of_false (fun hid => ?_) fun hboth => hclear hboth.2
    push Not at hclear
    obtain ⟨request, hrequest, htrue⟩ := hclear
    have hold := (hfirst.canonical ht).lt_next sym (hfirst.mem_of_issued hsym)
    have hnew := (hsecond.sinceId (sinceId_of_isClear hk hrequest
      (Bool.eq_true_of_not_eq_false htrue) (first.run t).2)).2 sym' hmem'
    omega

end

/-- One more request is the latest since the table was cleared, unless it clears the table. -/
theorem sinceClear_concat (requests : List Request) (request : Request) :
    sinceClear (requests ++ [request]) =
      if request.isClear then [] else request :: sinceClear requests := by
  rw [sinceClear, List.reverse_concat, List.takeWhile_cons]
  cases request.isClear <;> rfl

/-- The references in the table are those requested since it was cleared. -/
theorem mem_refs_after (hk : ∀ request t, Served k request t (request.run t).1 (request.run t).2)
    (hempty : k.symbols .empty = []) (requests : List Request) (ref : α) :
    ref ∈ (k.symbols (after requests)).map Symbol.ref ↔
      ref ∈ (sinceClear requests).filterMap k.requested? := by
  induction requests using List.reverseRecOn with
  | nil =>
    rw [after, runAll, List.foldl_nil, hempty]
    rfl
  | append_singleton requests request ih =>
    rw [after, runAll_append, sinceClear_concat]
    refine ((hk request (after requests)).mem_refs_iff ref).trans ?_
    rw [ih]
    cases request.isClear with
    | true => simp
    | false => simp [List.mem_filterMap]

/-- After any requests to an empty table the symbols of a sort are canonical. -/
theorem canonical_after (hk : ∀ request t, Served k request t (request.run t).1 (request.run t).2)
    (hempty : k.symbols .empty = []) (requests : List Request) : Canonical k (after requests) := by
  refine canonical_runAll hk requests ⟨?_, ?_, ?_⟩ <;> rw [hempty]
  · exact List.nodup_nil
  · exact List.nodup_nil
  · exact fun _ hsym => (List.not_mem_nil hsym).elim

/-- There are as many symbols as different references were requested since the table was cleared. -/
theorem length_symbols_after [DecidableEq α]
    (hk : ∀ request t, Served k request t (request.run t).1 (request.run t).2)
    (hempty : k.symbols .empty = []) (requests : List Request) :
    (k.symbols (after requests)).length =
      ((sinceClear requests).filterMap k.requested?).toFinset.card := by
  have hrefs := (canonical_after hk hempty requests).refs
  rw [← List.length_map Symbol.ref, ← List.toFinset_card_of_nodup hrefs]
  congr 1
  ext ref
  rw [List.mem_toFinset, List.mem_toFinset, mem_refs_after hk hempty]

/-- After any requests, whatever is handed out carries what is requested, and a call is given no
instance exactly when it names no class. Of two instances of method references, or of two instances
of field references, the later one is the same as the earlier one exactly when the references are
equal and the table was not cleared in between. The table holds one symbol for each reference that
was requested since it was last cleared. -/
theorem instances_after (requests : List Request) :
    (∀ request : Request,
      (request.run (after requests)).1.method?.map Symbol.ref = request.method? ∧
      (request.run (after requests)).1.field?.map Symbol.ref = request.field?) ∧
    (∀ op member, ((Request.invoked op member).run (after requests)).1.method? = none ↔
      ∀ m ∈ member, m.owner = []) ∧
    (∀ (first second : Request) (between : List Request) (sym sym' : Symbol MethodRef),
      (first.run (after requests)).1.method? = some sym →
      (second.run (after (requests ++ first :: between))).1.method? = some sym' →
      (sym.instanceId = sym'.instanceId ↔
        sym.ref = sym'.ref ∧ ∀ request ∈ between, request.isClear = false)) ∧
    (∀ (first second : Request) (between : List Request) (sym sym' : Symbol FieldRef),
      (first.run (after requests)).1.field? = some sym →
      (second.run (after (requests ++ first :: between))).1.field? = some sym' →
      (sym.instanceId = sym'.instanceId ↔
        sym.ref = sym'.ref ∧ ∀ request ∈ between, request.isClear = false)) ∧
    (after requests).size =
      ((sinceClear requests).filterMap Request.method?).toFinset.card +
      ((sinceClear requests).filterMap Request.field?).toFinset.card := by
  have hrefs : ∀ request : Request,
      (request.run (after requests)).1.method?.map Symbol.ref = request.method? :=
    fun request => (served_methodKind request (after requests)).ref_eq
  refine ⟨fun request => ⟨hrefs request, (served_fieldKind request (after requests)).ref_eq⟩,
    ?_, ?_, ?_, ?_⟩
  · intro op member
    rw [← Option.map_eq_none_iff (f := Symbol.ref), hrefs]
    cases member with
    | none => simp [Request.method?]
    | some member => simp [Request.method?]
  · intro first second between sym sym' hsym hsym'
    rw [after, runAll_append] at hsym'
    exact instanceId_eq_iff served_methodKind (canonical_after served_methodKind rfl requests)
      hsym hsym'
  · intro first second between sym sym' hsym hsym'
    rw [after, runAll_append] at hsym'
    exact instanceId_eq_iff served_fieldKind (canonical_after served_fieldKind rfl requests)
      hsym hsym'
  · exact congrArg₂ (· + ·) (length_symbols_after served_methodKind rfl requests)
      (length_symbols_after served_fieldKind rfl requests)

/-- A static method. -/
def runRef : MethodRef := ⟨"a.B", "run", "()V", true⟩

/-- A call of it. -/
def runCall : Request := .invoked .invokestatic (some ⟨"a/B", "run", "()V", false⟩)

/-- A field. -/
def sizeRef : FieldRef := ⟨"a.B", "size", "I", false⟩

/-- The instance that a call got is handed out for the reference, until the table is cleared. -/
theorem instances_after_cleared :
    (runCall.run (after [.field sizeRef])).1.method? = some ⟨runRef, 1⟩ ∧
    ((Request.method runRef).run
      (after ([.field sizeRef] ++ runCall :: [.field sizeRef]))).1.method? = some ⟨runRef, 1⟩ ∧
    ((Request.method runRef).run (after ([.field sizeRef] ++ runCall :: [.clear]))).1.method? =
      some ⟨runRef, 2⟩ ∧
    ((1 : Nat) = 1 ↔
      runRef = runRef ∧ ∀ request ∈ [Request.field sizeRef], request.isClear = false) ∧
    ((1 : Nat) = 2 ↔ runRef = runRef ∧ ∀ request ∈ [Request.clear], request.isClear = false) := by
  have hsame := (instances_after [.field sizeRef]).2.2.1 runCall (.method runRef)
    [.field sizeRef] ⟨runRef, 1⟩ ⟨runRef, 1⟩ (by decide) (by decide)
  have hcleared := (instances_after [.field sizeRef]).2.2.1 runCall (.method runRef)
    [.clear] ⟨runRef, 1⟩ ⟨runRef, 2⟩ (by decide) (by decide)
  exact ⟨by decide, by decide, by decide, hsame, hcleared⟩

end ReturnAudit.SymbolTable
