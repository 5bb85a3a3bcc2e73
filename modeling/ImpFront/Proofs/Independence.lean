/-
Calls on different symbols do not meet.

A declaration reads and changes one symbol, and so does a type that is given.  Calls on several
symbols, one after the other, therefore come apart: what becomes of a symbol, and how the calls on
it are answered, is what these calls alone would give (`serveAll_own`).  The order of calls counts
only among those on one symbol, so two interleavings of the same calls end in the same table with
the same answers.

The loop over an identifier list is not such a sequence of calls, since it gives a type only where
the declaration went well.  Its outcome does not depend on the order of the list either, but the
diagnostics come in another order (`serveAll_independent`).
-/
import ImpFront.Proofs.IdentifierLists

namespace ImpFront

/-- What can be asked of a symbol: to be declared, at a position, and to take a type. -/
inductive SymbolCall where
  | declare (pos : Position)
  | bindType (type : Ty)
  deriving DecidableEq, Repr

/-- The part of a list that belongs to a handle, in its order. -/
def SymbolId.own {α : Type} (id : SymbolId) (entries : List (SymbolId × α)) :
    List (SymbolId × α) :=
  entries.filter fun entry => entry.1 = id

/-- What a call makes of a symbol. -/
def Symbol.under (y : Symbol) : SymbolCall → Symbol
  | .declare _ => y.onDeclare
  | .bindType type => y.onBind type

namespace SymbolTable

/-- A call on a handle.  Only a type is answered by yes or no, and a declaration that goes wrong
by its diagnostic. -/
def serve (t : SymbolTable) (id : SymbolId) : SymbolCall → Update (Option Bool)
  | .declare pos => (t.declare id pos).map fun _ => none
  | .bindType type => (t.bindType id type).map some

/-- The table after calls carried out one after the other. -/
def serveAll (t : SymbolTable) (calls : List (SymbolId × SymbolCall)) : SymbolTable :=
  calls.foldl (fun t call => (t.serve call.1 call.2).table) t

/-- The answers to calls carried out one after the other, each with the handle of its call. -/
def replies : SymbolTable → List (SymbolId × SymbolCall) →
    List (SymbolId × Checked (Option Bool))
  | _, [] => []
  | t, (id, call) :: rest =>
    (id, (t.serve id call).toChecked) :: (t.serve id call).table.replies rest

/-! ## One call -/

theorem table_serve (t : SymbolTable) (id : SymbolId) (call : SymbolCall) :
    (t.serve id call).table = t.modify id (Symbol.under · call) := by
  cases call with
  | declare pos => exact t.table_declare id pos
  | bindType type => exact t.table_bindType id type

/-- A call is answered by the symbol of its handle. -/
theorem toChecked_serve_congr {t t' : SymbolTable} {id : SymbolId} (h : t.get? id = t'.get? id)
    (call : SymbolCall) : (t.serve id call).toChecked = (t'.serve id call).toChecked := by
  cases hy : t'.get? id with
  | none =>
    rw [hy] at h
    cases call with
    | declare pos =>
      rw [serve, serve, declare_of_unknown h, declare_of_unknown hy]
      rfl
    | bindType type =>
      rw [serve, serve, bindType_of_unknown h, bindType_of_unknown hy]
      rfl
  | some y =>
    rw [hy] at h
    cases call with
    | declare pos =>
      cases hd : y.declared with
      | true =>
        rw [serve, serve, declare_of_declared h hd, declare_of_declared hy hd]
        rfl
      | false =>
        rw [serve, serve, declare_of_fresh h hd, declare_of_fresh hy hd]
        rfl
    | bindType type =>
      cases hs : y.isSettled with
      | true =>
        rw [serve, serve, bindType_of_settled h hs, bindType_of_settled hy hs]
        rfl
      | false =>
        rw [serve, serve, bindType_of_open h hs, bindType_of_open hy hs]
        rfl

/-- A call changes the symbol of its handle by what it was, and no other symbol. -/
theorem get?_serve_congr {t t' : SymbolTable} {id : SymbolId} (h : t.get? id = t'.get? id)
    (other : SymbolId) (call : SymbolCall) :
    (t.serve other call).table.get? id = (t'.serve other call).table.get? id := by
  rw [table_serve, table_serve, get?_modify, get?_modify, h]

theorem get?_serve_of_ne (t : SymbolTable) {id other : SymbolId} (h : other ≠ id)
    (call : SymbolCall) : (t.serve other call).table.get? id = t.get? id := by
  rw [table_serve, get?_modify_of_ne t _ (Ne.symm h)]

/-! ## Calls one after the other -/

/- The calls on other symbols are dropped on the right side, so the two tables come to differ.
What the induction keeps is that they have the same symbol at the handle. -/
theorem serveAll_own {t t' : SymbolTable} {id : SymbolId} (h : t.get? id = t'.get? id)
    (calls : List (SymbolId × SymbolCall)) :
    (t.serveAll calls).get? id = (t'.serveAll (id.own calls)).get? id ∧
      id.own (t.replies calls) = id.own (t'.replies (id.own calls)) := by
  induction calls generalizing t t' with
  | nil => exact ⟨h, rfl⟩
  | cons entry rest ih =>
    obtain ⟨other, call⟩ := entry
    by_cases hother : other = id
    · subst hother
      obtain ⟨hsymbol, hreplies⟩ := ih (get?_serve_congr h other call)
      have hkept : other.own ((other, call) :: rest) = (other, call) :: other.own rest := by
        simp [SymbolId.own]
      rw [hkept]
      refine ⟨hsymbol, ?_⟩
      simp only [SymbolId.own, replies, List.filter_cons_of_pos, decide_true,
        toChecked_serve_congr h call]
      exact congrArg (List.cons _) hreplies
    · have hdropped : id.own ((other, call) :: rest) = id.own rest := by
        simp [SymbolId.own, hother]
      obtain ⟨hsymbol, hreplies⟩ := ih ((get?_serve_of_ne t hother call).trans h)
      rw [hdropped]
      refine ⟨hsymbol, ?_⟩
      rw [← hreplies]
      simp [SymbolId.own, replies, hother]

/-- No call reaches past the handles. -/
theorem getElem?_serveAll_of_ge (t : SymbolTable) (calls : List (SymbolId × SymbolCall)) {i : Nat}
    (hi : UInt32.size ≤ i) : (t.serveAll calls).entries[i]? = t.entries[i]? := by
  induction calls generalizing t with
  | nil => rfl
  | cons entry rest ih =>
    have hplace : entry.1.index.toNat ≠ i :=
      Nat.ne_of_lt (Nat.lt_of_lt_of_le entry.1.index.toNat_lt hi)
    refine (ih (t.serve entry.1 entry.2).table).trans ?_
    rw [table_serve, modify, List.getElem?_modify]
    simp [hplace]

theorem eq_of_get? {t t' : SymbolTable} (hreached : ∀ id, t.get? id = t'.get? id)
    (hpast : ∀ i, UInt32.size ≤ i → t.entries[i]? = t'.entries[i]?) : t = t' := by
  refine congrArg SymbolTable.mk (List.ext_getElem? fun i => ?_)
  rcases Nat.lt_or_ge i UInt32.size with hi | hi
  · have hget := hreached (SymbolId.ofNat i)
    rwa [get?, get?, SymbolId.toNat_ofNat hi] at hget
  · exact hpast i hi

/-! ## The order of a list -/

theorem listFaults_congr (t : SymbolTable) {earlier earlier' : List SymbolId}
    (h : ∀ id, id ∈ earlier ↔ id ∈ earlier') (ids : List SymbolId) :
    t.listFaults earlier ids = t.listFaults earlier' ids := by
  induction ids generalizing earlier earlier' with
  | nil => rfl
  | cons id rest ih =>
    have hnext : ∀ other, other ∈ earlier ++ [id] ↔ other ∈ earlier' ++ [id] := by
      intro other
      rw [List.mem_append, List.mem_append, h]
    have hfault : t.elementFault? earlier id = t.elementFault? earlier' id := by
      simp only [elementFault?, h]
    rw [listFaults_cons, listFaults_cons, hfault, ih hnext]

/-- Another element before this one counts only if it is the same. -/
theorem elementFault?_append_of_ne (t : SymbolTable) (earlier : List SymbolId)
    {id other : SymbolId} (h : id ≠ other) :
    t.elementFault? (earlier ++ [other]) id = t.elementFault? earlier id := by
  simp only [elementFault?, List.mem_append, List.mem_singleton, h, or_false]

theorem perm_listFaults (t : SymbolTable) {ids ids' : List SymbolId} (h : ids.Perm ids')
    (earlier : List SymbolId) : (t.listFaults earlier ids).Perm (t.listFaults earlier ids') := by
  induction h generalizing earlier with
  | nil => exact .refl _
  | cons id _ ih =>
    rw [listFaults_cons, listFaults_cons]
    exact (ih (earlier ++ [id])).append_left _
  | swap id other rest =>
    by_cases hid : id = other
    · rw [hid]
    · have hseen : ∀ x, x ∈ earlier ++ [other] ++ [id] ↔ x ∈ earlier ++ [id] ++ [other] := by
        intro x
        simp only [List.mem_append, List.mem_singleton]
        exact or_right_comm
      rw [listFaults_cons, listFaults_cons, listFaults_cons, listFaults_cons,
        elementFault?_append_of_ne t earlier hid,
        elementFault?_append_of_ne t earlier (Ne.symm hid), t.listFaults_congr hseen rest,
        ← List.append_assoc, ← List.append_assoc]
      exact List.perm_append_comm.append_right _
  | trans _ _ ihfirst ihsecond => exact (ihfirst earlier).trans (ihsecond earlier)

theorem declareAll_table_of_perm (t : SymbolTable) {ids ids' : List SymbolId}
    (h : ids.Perm ids') (type : Ty) (pos : Position) :
    (t.declareAll ids type pos).table = (t.declareAll ids' type pos).table := by
  refine congrArg SymbolTable.mk (List.ext_getElem? fun i => ?_)
  rw [getElem?_declareAll, getElem?_declareAll]
  simp only [(h.map fun id => id.index.toNat).mem_iff]

/-- What becomes of a symbol and what the calls on it are answered depends on the symbol and on
these calls in their order, whatever is called on other symbols in between.  So calls that are
interleaved in another way end in the same table with the same answers, and the order of an
identifier list decides about nothing but the order of its diagnostics. -/
theorem serveAll_independent :
    (∀ (t t' : SymbolTable) (id : SymbolId) (calls calls' : List (SymbolId × SymbolCall)),
      t.get? id = t'.get? id → id.own calls = id.own calls' →
        (t.serveAll calls).get? id = (t'.serveAll calls').get? id ∧
          id.own (t.replies calls) = id.own (t'.replies calls')) ∧
    (∀ (t : SymbolTable) (calls calls' : List (SymbolId × SymbolCall)),
      (∀ id : SymbolId, id.own calls = id.own calls') →
        t.serveAll calls = t.serveAll calls' ∧
          ∀ id : SymbolId, id.own (t.replies calls) = id.own (t.replies calls')) ∧
    ∀ (t : SymbolTable) (head head' : Node) (type : Ty) (pos : Position),
      head.listSymbols.Perm head'.listSymbols →
        (t.declareList head type pos).table = (t.declareList head' type pos).table ∧
          (t.declareList head type pos).diagnostics.Perm
            (t.declareList head' type pos).diagnostics := by
  have hlocal : ∀ (t t' : SymbolTable) (id : SymbolId)
      (calls calls' : List (SymbolId × SymbolCall)), t.get? id = t'.get? id →
      id.own calls = id.own calls' →
        (t.serveAll calls).get? id = (t'.serveAll calls').get? id ∧
          id.own (t.replies calls) = id.own (t'.replies calls') := by
    intro t t' id calls calls' hsymbol hcalls
    obtain ⟨hleft, hleftReplies⟩ := serveAll_own hsymbol calls
    have hsame : t'.get? id = t'.get? id := rfl
    obtain ⟨hright, hrightReplies⟩ := serveAll_own hsame calls'
    rw [hleft, hleftReplies, hcalls]
    exact ⟨hright.symm, hrightReplies.symm⟩
  refine ⟨hlocal, fun t calls calls' hcalls => ?_, fun t head head' type pos hperm => ?_⟩
  · refine ⟨eq_of_get? (fun id => (hlocal t t id calls calls' rfl (hcalls id)).1) fun i hi => ?_,
      fun id => (hlocal t t id calls calls' rfl (hcalls id)).2⟩
    rw [getElem?_serveAll_of_ge t calls hi, getElem?_serveAll_of_ge t calls' hi]
  · refine ⟨t.declareAll_table_of_perm hperm type pos, ?_⟩
    rw [declareList, declareList, diagnostics_declareAll, diagnostics_declareAll]
    exact (t.perm_listFaults hperm []).map _

/-- Calls on `a` and `b` in two orders, of which the second also runs on a table with another
`b`, and the lists `a, b, a` and `a, a, b`. -/
theorem serveAll_independent_of_two_variables :
    let pos := Position.null
    let a : SymbolId := ⟨0⟩
    let b : SymbolId := ⟨1⟩
    let t : SymbolTable := { entries := [{ name := "a" }, { name := "b" }] }
    let t' : SymbolTable := { entries := [{ name := "a" }, { name := "b", type := .string }] }
    let calls : List (SymbolId × SymbolCall) :=
      [(a, .declare pos), (b, .bindType .integer), (a, .bindType .boolean), (b, .declare pos),
        (a, .declare pos)]
    let calls' : List (SymbolId × SymbolCall) :=
      [(b, .bindType .integer), (b, .declare pos), (a, .declare pos), (a, .bindType .boolean),
        (a, .declare pos)]
    let list (first second third : SymbolId) : Node :=
      .listElement pos first <| some <| .listElement pos second <| some <|
        .listElement pos third none
    (t.serveAll calls).get? a = (t'.serveAll calls').get? a ∧
      t.serveAll calls = t.serveAll calls' ∧
      (t.declareList (list a b a) .integer pos).table =
        (t.declareList (list a a b) .integer pos).table := by
  intro pos a b t t' calls calls' list
  have hcalls : ∀ id : SymbolId, id.own calls = id.own calls' := by
    intro id
    by_cases ha : a = id
    · subst ha
      rfl
    · by_cases hb : b = id
      · subst hb
        rfl
      · simp [SymbolId.own, calls, calls', ha, hb]
  have hperm : (list a b a).listSymbols.Perm (list a a b).listSymbols :=
    (List.Perm.swap a b []).cons a
  obtain ⟨hlocal, hinterleaved, hlist⟩ := serveAll_independent
  exact ⟨(hlocal t t' a calls calls' rfl (hcalls a)).1, (hinterleaved t calls calls' hcalls).1,
    (hlist t (list a b a) (list a a b) .integer pos hperm).1⟩

end SymbolTable
end ImpFront
