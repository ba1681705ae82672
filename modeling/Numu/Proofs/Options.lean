/-
What OPTIONS says against what the handlers do.

OPTIONS describes an item to its caller: the verbs it offers, a verdict on each,
and for every field whether the caller may read or write it.  The handlers decide
the same things again, each at its own gate.

  * A verb is advertised when the policy of the type does not mask it and the
    caller's rank reaches its action; the handler asks only for the rank.
  * A field is advertised as readable by the comparison the read filter makes,
    and as writable by its class alone, where the write gate compares ranks.
-/
import Numu.Proofs.Oracles
import Numu.Proofs.Schema

namespace Numu

open Fallible Handler

/-! ### The object gate -/

/-- Does the object gate let the caller through? -/
def Store.admits (s : Store) (caller : Caller) (td : TypeDef) (objectId : Option String)
    (action : Action) : Bool :=
  caller.isPlatformAdmin ||
    objectId.all fun id => (s.effectiveRank caller.actorId id).any fun r => action.minRank td ≤ r

section Gate

variable {st : AppState} {ctx : RequestCtx} {caller : Caller} {td : TypeDef}
  {objectId : Option String} {s : Store} {α : Type}

theorem exec_requireAction (action : Action) :
    exec (requireAction caller td objectId action) s =
      (.ok (s.admits caller td objectId action), s) := by
  unfold requireAction Store.admits
  by_cases hadmin : caller.isPlatformAdmin = true
  · rw [if_pos hadmin, hadmin]
    rfl
  · rw [if_neg hadmin, Bool.eq_false_of_not_eq_true hadmin]
    cases objectId with
    | none => rfl
    | some id => rfl

/-- A handler behind the object gate: refused there, or run as what follows. -/
theorem exec_gated {typeId id : String} {action : Action} (htd : TypeDefCache.get st.registry typeId = some td)
    (rest : TypeDef → Handler α) :
    exec (do
      let td ← resolve st typeId ctx
      let ok ← requireAction caller td (some id) action
      ensure ok (deny404 ctx)
      rest td) s =
    if s.admits caller td (some id) action = true then exec (rest td) s
    else (.error (deny404 ctx), s) := by
  unfold resolve
  rw [htd, exec_getOr_some_bind, exec_bind, exec_requireAction]
  show exec (ensure (s.admits caller td (some id) action) (deny404 ctx) >>= fun _ => rest td) s = _
  cases s.admits caller td (some id) action with
  | true => rfl
  | false => rfl

/-- A handler that reads a row that is there goes on with it. -/
theorem exec_rowBind {typeId id : String} {row : EntityData} (hrow : s.row? id typeId = some row)
    (rest : EntityData → Handler α) :
    exec (do
      let found ← query fun s => s.row? id typeId
      let row ← getOr found (deny404 ctx)
      rest row) s = exec (rest row) s := by
  rw [exec_bind, exec_query]
  show exec (getOr (s.row? id typeId) (deny404 ctx) >>= rest) s = _
  rw [hrow, exec_getOr_some_bind]

end Gate

/-! ### The verbs that are advertised -/

/-- A verb is permitted: not masked, and let through. -/
def Store.permits (s : Store) (caller : Caller) (td : TypeDef) (objectId : Option String)
    (verb : String × Action) : Bool :=
  !td.maskedVerbs.contains verb.1 && s.admits caller td objectId verb.2

/-- The entry of a verb in the verdict. -/
def Store.verdict (s : Store) (caller : Caller) (td : TypeDef) (objectId : Option String)
    (verb : String × Action) : Json :=
  if td.maskedVerbs.contains verb.1 then
    .mkObj [("allowed", .bool false), ("reason", .str "masked by method_policy")]
  else if s.admits caller td objectId verb.2 then .mkObj [("allowed", .bool true)]
  else .mkObj [("allowed", .bool false), ("reason", .str "insufficient reach")]

section Verbs

variable {st : AppState} {ctx : RequestCtx} {caller : Caller} {td : TypeDef}
  {objectId : Option String} {s : Store}

theorem Store.permits_iff {v : String × Action} :
    s.permits caller td objectId v = true ↔
      v.1 ∉ td.maskedVerbs ∧ s.admits caller td objectId v.2 = true := by
  simp [Store.permits]

theorem exec_permittedEach (verbs : List (String × Action)) :
    exec (permittedEach caller td objectId verbs) s =
      (.ok ((verbs.filter (s.permits caller td objectId)).map Prod.fst), s) := by
  induction verbs with
  | nil => rfl
  | cons v rest ih =>
      obtain ⟨verb, action⟩ := v
      unfold permittedEach
      by_cases hmask : td.maskedVerbs.contains verb = true
      · have hmasked : ¬ s.permits caller td objectId (verb, action) = true :=
          fun h => (Store.permits_iff.mp h).1 (List.contains_iff_mem.mp hmask)
        rw [if_pos hmask, ih, List.filter_cons_of_neg hmasked]
      · have hmem : verb ∉ td.maskedVerbs := fun h => hmask (List.contains_iff_mem.mpr h)
        rw [if_neg hmask, exec_bind, exec_requireAction]
        show exec (permittedEach caller td objectId rest >>= fun verbs =>
          pure (if s.admits caller td objectId action = true then verb :: verbs else verbs)) s = _
        rw [exec_bind, ih]
        by_cases hok : s.admits caller td objectId action = true
        · have hpermits : s.permits caller td objectId (verb, action) = true :=
            Store.permits_iff.mpr ⟨hmem, hok⟩
          rw [List.filter_cons_of_pos hpermits]
          simp [hok]
        · have hrefused : ¬ s.permits caller td objectId (verb, action) = true :=
            fun h => hok (Store.permits_iff.mp h).2
          rw [List.filter_cons_of_neg hrefused]
          simp [hok]

theorem exec_verdictEach (verbs : List (String × Action)) :
    ∀ out, exec (verdictEach caller td objectId verbs out) s =
      (.ok (verbs.foldl (fun out v => JsonMap.insert out v.1 (s.verdict caller td objectId v)) out),
        s) := by
  induction verbs with
  | nil => intro out; rfl
  | cons v rest ih =>
      intro out
      obtain ⟨verb, action⟩ := v
      unfold verdictEach
      by_cases hmask : td.maskedVerbs.contains verb = true
      · rw [if_pos hmask, ih, List.foldl_cons]
        simp only [Store.verdict, if_pos hmask]
      · rw [if_neg hmask, exec_bind, exec_requireAction]
        show exec (verdictEach caller td objectId rest (JsonMap.insert out verb
          (if s.admits caller td objectId action = true then .mkObj [("allowed", .bool true)]
            else .mkObj [("allowed", .bool false), ("reason", .str "insufficient reach")]))) s = _
        rw [ih, List.foldl_cons]
        simp only [Store.verdict, if_neg hmask]

theorem exec_permittedVerbs (isItem : Bool) :
    exec (permittedVerbs caller td objectId isItem) s =
      (.ok (((verbActions isItem).filter (s.permits caller td objectId)).map Prod.fst), s) :=
  exec_permittedEach _

theorem exec_rbacVerdict (isItem : Bool) :
    exec (rbacVerdict caller td objectId isItem) s =
      (.ok (.obj ((verbActions isItem).foldl
        (fun out v => JsonMap.insert out v.1 (s.verdict caller td objectId v)) [])), s) := by
  unfold rbacVerdict
  rw [exec_bind, exec_verdictEach]
  rfl

theorem verdict_allowed (v : String × Action) :
    (s.verdict caller td objectId v).get? "allowed" = some (.bool true) ↔
      s.permits caller td objectId v = true := by
  rw [Store.permits_iff]
  unfold Store.verdict
  by_cases hmask : td.maskedVerbs.contains v.1 = true
  · have hmem : v.1 ∈ td.maskedVerbs := List.contains_iff_mem.mp hmask
    rw [if_pos hmask]
    simp [Json.mkObj, JsonMap.get?_insert, hmem]
  · have hmem : v.1 ∉ td.maskedVerbs := fun h => hmask (List.contains_iff_mem.mpr h)
    rw [if_neg hmask]
    by_cases hok : s.admits caller td objectId v.2 = true
    · rw [if_pos hok]
      simp [Json.mkObj, JsonMap.get?_insert, hmem, hok]
    · rw [if_neg hok]
      simp [Json.mkObj, JsonMap.get?_insert, hok]

end Verbs

/-! ### The handlers of an item -/

/-- The verbs of an item. -/
inductive ItemVerb where
  | get
  | head
  | put
  | patch
  | delete
  | options
deriving DecidableEq

namespace ItemVerb

def all : List ItemVerb := [.get, .head, .put, .patch, .delete, .options]

def name : ItemVerb → String
  | .get => "GET"
  | .head => "HEAD"
  | .put => "PUT"
  | .patch => "PATCH"
  | .delete => "DELETE"
  | .options => "OPTIONS"

/-- The action the verb stands for. -/
def action : ItemVerb → Action
  | .get | .head | .options => .view
  | .put | .patch => .edit
  | .delete => .delete

def handle (st : AppState) (ctx : RequestCtx) (env : Ambient) (caller : Caller)
    (typeId id : String) (headers : HeaderMap) (body : Body) : ItemVerb → Handler Response
  | .get => itemGet st ctx caller typeId id headers
  | .head => itemHead st ctx caller typeId id
  | .put => itemPut st ctx env caller typeId id headers body
  | .patch => itemPatch st ctx env caller typeId id headers body
  | .delete => itemDelete st ctx caller typeId id headers
  | .options => itemOptions st ctx caller typeId id

theorem mem_all (v : ItemVerb) : v ∈ all := by
  cases v <;> decide

theorem verbActions_item : verbActions true = all.map fun v => (v.name, v.action) := rfl

theorem name_inj {v w : ItemVerb} (h : v.name = w.name) : v = w := by
  revert h
  cases v <;> cases w <;> decide

end ItemVerb

/-! ### What a handler fails with behind its gate -/

/-- The error is neither an absent object nor a verb that is not offered. -/
def AppError.Passed (e : AppError) : Prop := e.status ≠ 404 ∧ e.status ≠ 405

instance (e : AppError) : Decidable e.Passed := inferInstanceAs (Decidable (_ ∧ _))

namespace AppError

theorem passed_of_status {e : AppError} {n : Nat} (h : e.status = n) (hn : n ≠ 404 ∧ n ≠ 405) :
    e.Passed := by
  unfold Passed
  rw [h]
  exact hn

@[simp] theorem passed_withRequestId (e : AppError) (id : String) :
    (e.withRequestId id).Passed ↔ e.Passed := Iff.rfl

@[simp] theorem passed_badRequest (d : String) : (badRequest d).Passed :=
  passed_of_status (show _ = 400 from rfl) (by decide)

@[simp] theorem passed_unprocessable (d : String) : (unprocessable d).Passed :=
  passed_of_status (show _ = 422 from rfl) (by decide)

@[simp] theorem passed_illegalTransition (d : String) : (illegalTransition d).Passed :=
  passed_of_status (show _ = 422 from rfl) (by decide)

@[simp] theorem passed_closePreconditionsUnmet (d : String) : (closePreconditionsUnmet d).Passed :=
  passed_of_status (show _ = 422 from rfl) (by decide)

@[simp] theorem passed_forbiddenField (field : String) : (forbiddenField field).Passed :=
  passed_of_status (show _ = 403 from rfl) (by decide)

@[simp] theorem passed_preconditionFailed : preconditionFailed.Passed := by decide

@[simp] theorem passed_preconditionRequired : preconditionRequired.Passed := by decide

@[simp] theorem passed_unsupportedMediaType : unsupportedMediaType.Passed := by decide

/-- A database error is not an absent object, unless the driver found no row. -/
theorem passed_ofSqlx {x : SqlxError} (h : x ≠ .rowNotFound) : (ofSqlx x).Passed := by
  cases x with
  | rowNotFound => exact absurd rfl h
  | database code message =>
      unfold ofSqlx
      simp only
      split
      · simp
      · split
        · exact passed_of_status (show _ = 409 from rfl) (by decide)
        · split
          · simp
          · exact passed_of_status (show _ = 500 from rfl) (by decide)

end AppError

/-- The answer got past the gate. -/
def PassedGate (r : Except AppError Response) : Prop := ∀ e, r = .error e → e.Passed

theorem forM_error {α ε : Type} {f : α → Except ε Unit} {e : ε} {l : List α}
    (h : l.forM f = .error e) : ∃ a ∈ l, f a = .error e := by
  induction l with
  | nil => simp [List.forM, pure, Except.pure] at h
  | cons a rest ih =>
      replace h : (f a >>= fun _ => rest.forM f) = .error e := h
      cases hf : f a with
      | error e' =>
          rw [hf] at h
          exact ⟨a, List.mem_cons_self .., by rw [hf, Except.error.inj h]⟩
      | ok u =>
          rw [hf] at h
          obtain ⟨b, hb, hfb⟩ := ih h
          exact ⟨b, List.mem_cons_of_mem a hb, hfb⟩

section Checks

variable {headers : HeaderMap} {body : Body} {ctx : RequestCtx} {td : TypeDef} {e : AppError}

theorem requireIfMatch_passed (h : requireIfMatch headers ctx = .error e) : e.Passed := by
  unfold requireIfMatch at h
  split at h
  · rw [← Except.error.inj h]
    simp
  · rw [← Except.error.inj h]
    simp
  · cases h

theorem readJson_passed {allowMerge : Bool} (h : readJson headers body allowMerge = .error e) :
    e.Passed := by
  unfold readJson at h
  simp only at h
  split at h
  · rw [← Except.error.inj h]
    simp
  · split at h
    · rw [← Except.error.inj h]
      simp
    · split at h
      · cases h
      · rw [← Except.error.inj h]
        simp

theorem checkInput_passed {payload : Json} {onCreate : Bool}
    (h : checkInput td payload onCreate = .error e) : e.Passed := by
  unfold checkInput at h
  obtain ⟨k, -, hk⟩ := forM_error h
  split at hk
  · rw [← Except.error.inj hk]
    simp
  · split at hk
    · rw [← Except.error.inj hk]
      simp
    · split at hk
      · rw [← Except.error.inj hk]
        simp
      · cases hk

theorem finalField_passed {data : Json} {f : FieldDef} (h : finalField data f = .error e) :
    e.Passed := by
  have hkind : ∀ v e', (coerceCheck f v).mapError AppError.unprocessable = .error e' →
      e'.Passed := by
    intro v e' hv
    cases hc : coerceCheck f v with
    | ok u =>
        rw [hc] at hv
        cases hv
    | error d =>
        rw [hc] at hv
        rw [← Except.error.inj hv]
        simp
  unfold finalField at h
  simp only at h
  split at h
  · rw [← Except.error.inj h]
    simp
  · split at h
    · exact hkind _ _ h
    · cases h

theorem validateFinal_passed {data : Json} (h : validateFinal td data = .error e) : e.Passed := by
  rw [validateFinal_eq] at h
  split at h
  · rw [← Except.error.inj h]
    simp
  · obtain ⟨f, -, hf⟩ := forM_error h
    exact finalField_passed hf

theorem validate_passed {c : WorkflowCache} {wf new : String} {old : Option String}
    (h : WorkflowCache.validate c wf old new = .error e) : e.Passed := by
  unfold WorkflowCache.validate at h
  split at h
  · rw [← Except.error.inj h]
    simp
  · split at h
    · rw [← Except.error.inj h]
      simp
    · split at h
      · split at h
        · rw [← Except.error.inj h]
          simp
        · cases h
      · split at h
        · rw [← Except.error.inj h]
          simp
        · cases h

/-- The field's error is passed on with the id of the request. -/
theorem mapError_passed {γ : Type} {r : Except AppError γ}
    (hr : ∀ e, r = .error e → e.Passed)
    (h : r.mapError (·.withRequestId ctx.requestId) = .error e) : e.Passed := by
  cases r with
  | ok a => cases h
  | error e' =>
      rw [← Except.error.inj h]
      exact hr e' rfl

end Checks

section Programs

variable {v : UpdateVerb} {st : AppState} {ctx : RequestCtx} {env : Ambient} {caller : Caller}
  {td : TypeDef} {typeId id : String} {headers : HeaderMap} {body : Body} {P : AppError → Prop}

theorem raises_rankOn : Raises P (rankOn caller id) :=
  raises_ite (raises_pure _) (raises_bind (raises_query _) fun _ => raises_pure _)

theorem raises_requireAction {objectId : Option String} {action : Action} :
    Raises P (requireAction caller td objectId action) := by
  refine raises_ite (raises_pure _) ?_
  cases objectId with
  | none => exact raises_pure _
  | some id => exact raises_bind (raises_query _) fun _ => raises_pure _

theorem raises_dropUnreadable {rank : I32} (fields : List FieldDef) :
    ∀ m, Raises P (dropUnreadable td rank fields m) := by
  induction fields with
  | nil => intro m; exact raises_pure _
  | cons f rest ih => intro m; exact raises_bind (raises_query _) fun _ => ih _

theorem raises_filterReadable {data : Json} : Raises P (filterReadable caller td id data) := by
  refine raises_bind raises_rankOn fun rank => raises_ite (raises_pure _) ?_
  split
  · exact raises_bind (raises_dropUnreadable _ _) fun _ => raises_pure _
  · exact raises_pure _

theorem raises_readableEach {rank : I32} (fields : List FieldDef) :
    Raises P (readableEach td rank fields) := by
  induction fields with
  | nil => exact raises_pure _
  | cons f rest ih => exact raises_bind (raises_query _) fun _ => raises_bind ih fun _ => raises_pure _

theorem raises_recordEvent {actorId kind : String} {entityId : Option String} {payload : Json} :
    Raises P (recordEvent ctx actorId entityId kind payload) := by
  refine raises_attempt fun s e h => ?_
  split at h
  · cases h
  · cases h

theorem raises_execute {α : Type} {q : Stmt α} (h : ∀ s, q s ≠ .error .rowNotFound) :
    Raises AppError.Passed (execute q) := by
  refine raises_attempt fun s e he => ?_
  cases hq : q s with
  | ok r =>
      rw [hq] at he
      cases he
  | error x =>
      rw [hq] at he
      rw [← Except.error.inj he]
      exact AppError.passed_ofSqlx fun hx => h s (hq.trans (congrArg _ hx))

theorem raises_requireWriteEach {rank : I32} (written : List String) :
    Raises AppError.Passed (requireWriteEach td rank ctx written) := by
  induction written with
  | nil => exact raises_pure _
  | cons k rest ih =>
      unfold requireWriteEach
      split
      · exact ih
      · refine raises_bind (raises_query _) fun floors => raises_bind ?_ fun _ => ih
        exact raises_ensure fun _ => by simp

theorem raises_requireWrite {written : List String} :
    Raises AppError.Passed (requireWrite caller td id written ctx) :=
  raises_bind raises_rankOn fun _ => raises_ite (raises_pure _) (raises_requireWriteEach _)

theorem raises_unmetCloseChecks (names : List String) : Raises P (unmetCloseChecks id names) := by
  induction names with
  | nil => exact raises_pure _
  | cons name rest ih =>
      exact raises_bind (raises_query _) fun _ => raises_bind ih fun _ => raises_pure _

theorem raises_validateCaseChange {data : Json} {old : Option String} :
    Raises AppError.Passed (validateCaseChange st id data old ctx) := by
  unfold validateCaseChange
  refine raises_bind (raises_check fun e he => mapError_passed (fun _ => validate_passed) he)
    fun _ => ?_
  split
  · exact raises_pure _
  · refine raises_ite ?_ (raises_pure _)
    exact raises_bind (raises_unmetCloseChecks _) fun _ => raises_ensure fun _ => by simp

theorem raises_updateChecks {existing : Json} :
    Raises AppError.Passed (updateChecks v st ctx caller td id headers body existing) := by
  unfold updateChecks
  refine raises_bind (raises_check fun _ => requireIfMatch_passed) fun _ => ?_
  refine raises_bind (raises_check fun _ => readJson_passed) fun _ => ?_
  refine raises_bind (raises_check fun _ => checkInput_passed) fun _ => ?_
  refine raises_bind (raises_check fun _ => validateFinal_passed) fun _ => ?_
  refine raises_bind raises_requireWrite fun _ => ?_
  exact raises_bind (raises_onlyIf raises_validateCaseChange) fun _ => raises_pure _

theorem updateEntityData_no_row {data : Json} {sp : Option String} {expected : I32}
    {now : Timestamp} (s : Store) :
    updateEntityData data sp id typeId expected now s ≠ .error .rowNotFound := by
  intro h
  unfold updateEntityData at h
  split at h
  · cases h
  · split at h
    · split at h
      · cases h
      · split at h
        · cases h
        · cases h
    · cases h

theorem upsertCaseMirror_no_row {data : Json} {version : I32} (s : Store) :
    upsertCaseMirror id data version s ≠ .error .rowNotFound := by
  intro h
  have hstatus := upsertCase_error_status h
  exact absurd hstatus (by decide)

theorem raises_updateWrites {data : Json} {expected : I32} :
    Raises AppError.Passed (updateWrites v ctx env caller td typeId id data expected) := by
  unfold updateWrites
  refine raises_bind (raises_execute updateEntityData_no_row) fun _ => ?_
  refine raises_bind (raises_ensure fun _ => by simp) fun _ => ?_
  refine raises_bind (raises_onlyIf (raises_execute upsertCaseMirror_no_row)) fun _ => ?_
  exact raises_bind raises_recordEvent fun _ => raises_pure _

theorem raises_permittedEach {objectId : Option String} (verbs : List (String × Action)) :
    Raises P (permittedEach caller td objectId verbs) := by
  induction verbs with
  | nil => exact raises_pure _
  | cons v rest ih =>
      refine raises_ite ih ?_
      exact raises_bind raises_requireAction fun _ => raises_bind ih fun _ => raises_pure _

theorem raises_verdictEach {objectId : Option String} (verbs : List (String × Action)) :
    ∀ out, Raises P (verdictEach caller td objectId verbs out) := by
  induction verbs with
  | nil => intro out; exact raises_pure _
  | cons v rest ih =>
      intro out
      exact raises_ite (ih _) (raises_bind raises_requireAction fun _ => ih _)

theorem raises_optionsBody {version : Option I32} :
    Raises P (optionsBody td caller (some id) true version) := by
  unfold optionsBody readableSet
  refine raises_bind (raises_bind raises_rankOn fun _ => raises_readableEach _) fun _ => ?_
  refine raises_bind (raises_permittedEach _) fun _ => ?_
  exact raises_bind (raises_bind (raises_verdictEach _ _) fun _ => raises_pure _) fun _ =>
    raises_pure _

end Programs

section Enforced

variable {st : AppState} {ctx : RequestCtx} {env : Ambient} {caller : Caller} {td : TypeDef}
  {typeId id : String} {headers : HeaderMap} {body : Body} {s : Store} {row : EntityData}

theorem passedGate_of_raises {p : Handler Response} (h : Raises AppError.Passed p) (s : Store) :
    PassedGate (exec p s).1 := fun _ he => h.exec (Prod.ext he rfl)

/-- A handler behind the object gate answers past it exactly when the caller is let through. -/
theorem passedGate_gated (htd : TypeDefCache.get st.registry typeId = some td) {action : Action}
    {rest : TypeDef → Handler Response} (hrest : PassedGate (exec (rest td) s).1) :
    PassedGate (exec (do
      let td ← resolve st typeId ctx
      let ok ← requireAction caller td (some id) action
      ensure ok (deny404 ctx)
      rest td) s).1 ↔ s.admits caller td (some id) action = true := by
  rw [exec_gated htd]
  by_cases hok : s.admits caller td (some id) action = true
  · rw [if_pos hok]
    exact ⟨fun _ => hok, fun _ => hrest⟩
  · rw [if_neg hok]
    exact ⟨fun h => absurd rfl (h _ rfl).1, fun h => absurd h hok⟩

theorem passedGate_row (hrow : s.row? id typeId = some row) {rest : EntityData → Handler Response}
    (hrest : Raises AppError.Passed (rest row)) :
    PassedGate (exec (do
      let found ← query fun s => s.row? id typeId
      let row ← getOr found (deny404 ctx)
      rest row) s).1 := by
  rw [exec_rowBind hrow]
  exact passedGate_of_raises hrest s

theorem itemUpdate_passed_iff (v : UpdateVerb)
    (htd : TypeDefCache.get st.registry typeId = some td) (hrow : s.row? id typeId = some row) :
    PassedGate (exec (itemUpdate v st ctx env caller typeId id headers body) s).1 ↔
      s.admits caller td (some id) .edit = true := by
  unfold itemUpdate
  refine passedGate_gated htd (passedGate_row hrow ?_)
  exact raises_bind raises_updateChecks fun _ => raises_updateWrites

theorem itemDelete_passed_iff (htd : TypeDefCache.get st.registry typeId = some td)
    (hrow : s.row? id typeId = some row) :
    PassedGate (exec (itemDelete st ctx caller typeId id headers) s).1 ↔
      s.admits caller td (some id) .delete = true := by
  unfold itemDelete
  refine passedGate_gated htd ?_
  rw [exec_bind, exec_query, hrow]
  refine passedGate_of_raises ?_ s
  refine raises_bind (raises_ensure fun h => by simp at h) fun _ => ?_
  refine raises_bind (raises_check fun _ => requireIfMatch_passed) fun expected => ?_
  refine raises_bind (raises_execute fun s h => ?_) fun _ => ?_
  · unfold deleteEntity at h
    split at h
    · cases h
    · split at h
      · cases h
      · cases h
  · refine raises_bind (raises_ensure fun _ => by simp) fun _ => ?_
    exact raises_bind raises_recordEvent fun _ => raises_pure _

/-- **The handler of a verb lets through exactly whom the gate of its action lets through.** -/
theorem ItemVerb.passed_iff (v : ItemVerb) (htd : TypeDefCache.get st.registry typeId = some td)
    (hrow : s.row? id typeId = some row) :
    PassedGate (exec (v.handle st ctx env caller typeId id headers body) s).1 ↔
      s.admits caller td (some id) v.action = true := by
  cases v with
  | get =>
      show PassedGate (exec (itemGet st ctx caller typeId id headers) s).1 ↔ _
      unfold itemGet
      refine passedGate_gated htd (passedGate_row hrow ?_)
      exact raises_bind raises_filterReadable fun _ => raises_ite (raises_pure _) (raises_pure _)
  | head =>
      show PassedGate (exec (itemHead st ctx caller typeId id) s).1 ↔ _
      unfold itemHead
      exact passedGate_gated htd (passedGate_row hrow (raises_pure _))
  | put => exact itemUpdate_passed_iff .put htd hrow
  | patch => exact itemUpdate_passed_iff .patch htd hrow
  | delete => exact itemDelete_passed_iff htd hrow
  | options =>
      show PassedGate (exec (itemOptions st ctx caller typeId id) s).1 ↔ _
      unfold itemOptions
      refine passedGate_gated htd (passedGate_row hrow ?_)
      exact raises_bind (raises_permittedEach _) fun _ => raises_bind raises_optionsBody fun _ =>
        raises_pure _

theorem ItemVerb.mem_permitted {v : ItemVerb} {objectId : Option String} :
    v.name ∈ ((verbActions true).filter (s.permits caller td objectId)).map Prod.fst ↔
      v.name ∉ td.maskedVerbs ∧ s.admits caller td objectId v.action = true := by
  rw [List.mem_map]
  constructor
  · rintro ⟨⟨name, action⟩, hmem, hname⟩
    obtain ⟨hverb, hpermits⟩ := List.mem_filter.mp hmem
    rw [ItemVerb.verbActions_item] at hverb
    obtain ⟨w, -, hw⟩ := List.mem_map.mp hverb
    obtain ⟨rfl, rfl⟩ := Prod.mk.inj hw
    obtain rfl := ItemVerb.name_inj hname
    exact Store.permits_iff.mp hpermits
  · intro h
    refine ⟨(v.name, v.action), List.mem_filter.mpr ⟨?_, Store.permits_iff.mpr h⟩, rfl⟩
    rw [ItemVerb.verbActions_item]
    exact List.mem_map.mpr ⟨v, v.mem_all, rfl⟩

theorem ItemVerb.get?_verdict (v : ItemVerb) {objectId : Option String} :
    (Json.obj ((verbActions true).foldl
      (fun out w => JsonMap.insert out w.1 (s.verdict caller td objectId w)) [])).get? v.name =
      some (s.verdict caller td objectId (v.name, v.action)) := by
  rw [Json.get?_obj]
  cases v <;> simp [verbActions, ItemVerb.name, ItemVerb.action, JsonMap.get?_insert]

/-- A verb that is not offered is answered with every verb that is not masked. -/
theorem exec_m405Item (htd : TypeDefCache.get st.registry typeId = some td) :
    exec (m405Item st ctx caller typeId) s =
      (.error ((AppError.methodNotAllowed (((verbActions true).filter
        (s.permits caller td none)).map Prod.fst)).withRequestId ctx.requestId), s) := by
  unfold m405Item m405 resolve
  rw [htd, exec_getOr_some_bind, exec_bind, exec_permittedVerbs]
  rfl

/--
What is said and what is done about the verbs of an item: a verb is permitted when the verdict
allows it and when its handler lets the caller through, and the answer to a verb that is not
offered lists the permitted ones.
-/
def VerbsAgree (st : AppState) (ctx : RequestCtx) (env : Ambient) (caller : Caller) (td : TypeDef)
    (typeId id : String) (headers : HeaderMap) (body : Body) (s : Store) : Prop :=
  ∃ permitted verdict allow,
    exec (permittedVerbs caller td (some id) true) s = (.ok permitted, s) ∧
    exec (rbacVerdict caller td (some id) true) s = (.ok verdict, s) ∧
    exec (m405Item st ctx caller typeId) s =
      (.error ((AppError.methodNotAllowed allow).withRequestId ctx.requestId), s) ∧
    (∀ v : ItemVerb,
      (v.name ∈ permitted ↔
        (verdict.get? v.name).bind (fun w => w.get? "allowed") = some (.bool true)) ∧
      (v.name ∈ permitted ↔
        PassedGate (exec (v.handle st ctx env caller typeId id headers body) s).1)) ∧
    allow = permitted

/--
**OPTIONS agrees with the handlers exactly when a verb is masked where the caller's reach ends.**
A masked verb within reach is done although it is not advertised; a verb out of reach that is not
masked is listed by the 405.
-/
theorem verbs_agree_iff (st : AppState) (ctx : RequestCtx) (env : Ambient) (caller : Caller)
    (td : TypeDef) (typeId id : String) (headers : HeaderMap) (body : Body) (s : Store)
    (row : EntityData) (htd : TypeDefCache.get st.registry typeId = some td)
    (hrow : s.row? id typeId = some row) :
    VerbsAgree st ctx env caller td typeId id headers body s ↔
      ∀ v : ItemVerb,
        (v.name ∈ td.maskedVerbs ↔ s.admits caller td (some id) v.action = false) := by
  have hnone : ∀ action, s.admits caller td none action = true := by
    intro action
    simp [Store.admits]
  constructor
  · rintro ⟨permitted, verdict, allow, hpermitted, -, h405, hall, hallow⟩ v
    rw [exec_permittedVerbs] at hpermitted
    obtain rfl := Except.ok.inj (congrArg Prod.fst hpermitted)
    rw [exec_m405Item htd] at h405
    have herror := Except.error.inj (congrArg Prod.fst h405)
    obtain rfl := Option.some.inj (congrArg AppError.allow herror)
    refine ⟨fun hmask => ?_, fun hout => ?_⟩
    · -- A masked verb is not permitted, so its handler must refuse it.
      by_contra hin
      have hpassed : PassedGate
          (exec (v.handle st ctx env caller typeId id headers body) s).1 :=
        (v.passed_iff htd hrow).mpr (by simpa using hin)
      exact (ItemVerb.mem_permitted.mp ((hall v).2.mpr hpassed)).1 hmask
    · -- A verb that is not masked is listed by the 405, so it must be permitted.
      by_contra hmask
      have hlisted : v.name ∈
          ((verbActions true).filter (s.permits caller td none)).map Prod.fst :=
        ItemVerb.mem_permitted.mpr ⟨hmask, hnone v.action⟩
      rw [hallow] at hlisted
      have hin := (ItemVerb.mem_permitted.mp hlisted).2
      rw [hout] at hin
      simp at hin
  · intro hcond
    have hin : ∀ v : ItemVerb, v.name ∉ td.maskedVerbs ↔
        s.admits caller td (some id) v.action = true := by
      intro v
      rw [hcond v]
      simp
    refine ⟨_, _, _, exec_permittedVerbs true, exec_rbacVerdict true, exec_m405Item htd, ?_, ?_⟩
    · intro v
      rw [v.get?_verdict, Option.bind_some, verdict_allowed, Store.permits_iff,
        v.passed_iff htd hrow, ItemVerb.mem_permitted]
      exact ⟨Iff.rfl, ⟨fun h => h.2, fun h => ⟨(hin v).mpr h, h⟩⟩⟩
    · refine congrArg (List.map Prod.fst) (List.filter_congr fun w hw => ?_)
      rw [ItemVerb.verbActions_item] at hw
      obtain ⟨v, -, rfl⟩ := List.mem_map.mp hw
      rw [Bool.eq_iff_iff, Store.permits_iff, Store.permits_iff]
      exact ⟨fun h => ⟨h.1, (hin v).mp h.1⟩, fun h => ⟨h.1, hnone v.action⟩⟩

end Enforced

/-! #### A type that is read only by policy -/

/-- Reports are not written by clients. -/
def reportType : TypeDef :=
  { plainType "report" "REP" with
    methodPolicy := .obj [("mask", .arr [.str "put", .str "patch", .str "delete"])] }

def reportState : AppState := ⟨⟨[reportType], by decide⟩, ∅⟩

/-- A report that USR_alice views. -/
def reportStore : Store where
  typeDefinitions := ⟨[plainType "actor" "USR", reportType], by decide⟩
  entities := ⟨[⟨"USR_alice", "actor", none⟩, ⟨"REP_1", "report", none⟩], by decide⟩
  entityData := ⟨[{ entityId := "REP_1", typeId := "report", data := .obj [] }], by decide⟩
  memberships := ⟨[{ objectId := "REP_1", memberId := "USR_alice", role := "viewer" }], by decide⟩
  roles := seededRoles

/-- An admin's PATCH of a report goes through although PATCH is masked. -/
theorem masked_patch_goes_through :
    (reportStore.row? "REP_1" "report").isSome = true ∧
      reportStore.admits ⟨"USR_dev", true⟩ reportType (some "REP_1") .view = true ∧
      ¬ VerbsAgree reportState plainCtx {} ⟨"USR_dev", true⟩ reportType "report" "REP_1" versionOne
        (.ok ⟨.obj [], by decide⟩) reportStore := by
  refine ⟨by decide, by decide, ?_⟩
  rintro ⟨permitted, verdict, allow, hpermitted, -, -, hall, -⟩
  rw [exec_permittedVerbs] at hpermitted
  obtain rfl := Except.ok.inj (congrArg Prod.fst hpermitted)
  have hpassed : PassedGate (exec (ItemVerb.patch.handle reportState plainCtx {} ⟨"USR_dev", true⟩
      "report" "REP_1" versionOne (.ok ⟨.obj [], by decide⟩)) reportStore).1 :=
    (ItemVerb.patch.passed_iff rfl rfl).mpr (by decide)
  have hmask : ItemVerb.patch.name ∈ reportType.maskedVerbs := by decide
  exact (ItemVerb.mem_permitted.mp ((hall .patch).2.mpr hpassed)).1 hmask

/-- For a viewer of the report OPTIONS tells the truth. -/
theorem viewer_verbs_agree :
    VerbsAgree reportState plainCtx {} alice reportType "report" "REP_1" versionOne
      (.ok ⟨.obj [], by decide⟩) reportStore := by
  refine (verbs_agree_iff reportState plainCtx {} alice reportType "report" "REP_1" versionOne
    (.ok ⟨.obj [], by decide⟩) reportStore _ rfl rfl).mpr ?_
  intro v
  cases v <;> decide

/-! ### The flags of the fields -/

section Flags

variable {st : AppState} {ctx : RequestCtx} {caller : Caller} {td : TypeDef} {typeId id : String}
  {headers : HeaderMap} {s : Store} {row : EntityData} {f : FieldDef}

theorem TypeDef.eq_of_field_eq {g : FieldDef} (hg : g ∈ td.fields) (hf : f ∈ td.fields)
    (hname : g.field = f.field) : g = f := by
  have hfind := TypeDef.field_eq_some.mpr ⟨hg, hname⟩
  rw [TypeDef.field_eq_some.mpr ⟨hf, rfl⟩] at hfind
  exact (Option.some.inj hfind).symm

theorem exec_readableEach (rank : I32) (fields : List FieldDef) :
    exec (readableEach td rank fields) s =
      (.ok ((fields.filter fun f =>
        (s.fieldFloors td.typeId f.field f.permClass).1 ≤ rank).map FieldDef.field), s) := by
  induction fields with
  | nil => rfl
  | cons f rest ih =>
      unfold readableEach
      rw [exec_bind, exec_query]
      show exec (readableEach td rank rest >>= fun names =>
        pure (if (s.fieldFloors td.typeId f.field f.permClass).1 ≤ rank then f.field :: names
          else names)) s = _
      rw [exec_bind, ih]
      by_cases hle : (s.fieldFloors td.typeId f.field f.permClass).1 ≤ rank
      · rw [List.filter_cons_of_pos (by simpa using hle)]
        simp [hle]
      · rw [List.filter_cons_of_neg (by simpa using hle)]
        simp [hle]

/-- The fields that OPTIONS of an item calls readable. -/
def Store.readable (s : Store) (caller : Caller) (td : TypeDef) (id : String) : List String :=
  (td.fields.filter fun f =>
    (s.fieldFloors td.typeId f.field f.permClass).1 ≤ s.callerRank caller id).map FieldDef.field

theorem exec_readableSet :
    exec (readableSet caller td (some id)) s = (.ok (s.readable caller td id), s) := by
  unfold readableSet
  simp only
  rw [exec_bind, exec_rankOn]
  exact exec_readableEach _ _

theorem mem_readable (hf : f ∈ td.fields) :
    f.field ∈ s.readable caller td id ↔
      (s.fieldFloors td.typeId f.field f.permClass).1 ≤ s.callerRank caller id := by
  unfold Store.readable
  rw [List.mem_map]
  constructor
  · rintro ⟨g, hg, hname⟩
    obtain ⟨hmem, hle⟩ := List.mem_filter.mp hg
    obtain rfl := TypeDef.eq_of_field_eq hmem hf hname
    simpa using hle
  · intro hle
    exact ⟨f, List.mem_filter.mpr ⟨hf, by simpa using hle⟩, rfl⟩

/-- The description of an item says this of its fields. -/
theorem exec_optionsBody (caller : Caller) (td : TypeDef) (id : String) (s : Store)
    (version : Option I32) :
    ∃ b, exec (optionsBody td caller (some id) true version) s = (.ok b, s) ∧
      b.get? "fields" = some (.arr (td.fields.map (fieldJson (s.readable caller td id)))) := by
  unfold optionsBody
  rw [exec_bind, exec_readableSet]
  simp only
  rw [exec_bind, exec_permittedVerbs]
  simp only
  rw [exec_bind, exec_rbacVerdict]
  refine ⟨_, rfl, ?_⟩
  cases version with
  | none => simp [Json.mkObj, JsonMap.get?_insert]
  | some v => simp [Json.mkObj, JsonMap.get?_insert]

theorem admits_view (h : s.admits caller td (some id) .edit = true) :
    s.admits caller td (some id) .view = true := by
  unfold Store.admits at h ⊢
  simp only [Bool.or_eq_true, Option.all_some, Option.any_eq_true] at h ⊢
  rcases h with hadmin | ⟨r, hr, hle⟩
  · exact Or.inl hadmin
  · refine Or.inr ⟨r, hr, ?_⟩
    have hone : (1 : I32) ≤ 2 := by decide
    have htwo : (2 : I32) ≤ r := of_decide_eq_true hle
    exact decide_eq_true (hone.trans htwo)

/-- The read filter keeps every field at or above its floor. -/
theorem exec_filterReadable (caller : Caller) (td : TypeDef) (id : String) (s : Store)
    (data : Json) :
    ∃ shown, exec (filterReadable caller td id data) s = (.ok shown, s) ∧
      ∀ f ∈ td.fields, (data.get? f.field).isSome = true →
        ((s.fieldFloors td.typeId f.field f.permClass).1 ≤ s.callerRank caller id ↔
          shown.get? f.field = data.get? f.field) := by
  obtain ⟨shown, hshown⟩ : ∃ shown, exec (filterReadable caller td id data) s = (.ok shown, s) :=
    exec_of_readOnly raises_filterReadable readOnly_filterReadable s
  refine ⟨shown, hshown, fun f hf hpresent => ⟨fun hle => ?_, fun hkept => ?_⟩⟩
  · unfold filterReadable at hshown
    rw [exec_bind, exec_rankOn] at hshown
    simp only at hshown
    split at hshown
    · rw [← Except.ok.inj (congrArg Prod.fst hshown)]
    · split at hshown
      · rename_i m
        obtain ⟨kept, t, hkept, h⟩ := exec_bind_ok.mp hshown
        simp only [exec_pure, Prod.mk.injEq, Except.ok.injEq] at h
        rw [← h.1, Json.get?_obj, Json.get?_obj, dropUnreadable_ok td.fields _ kept hkept, if_neg]
        rintro ⟨g, hg, hname, hlt⟩
        obtain rfl := TypeDef.eq_of_field_eq hg hf hname
        exact absurd hle (not_le.mpr hlt)
      · rw [← Except.ok.inj (congrArg Prod.fst hshown)]
  · by_contra hlt
    have hnone := filterReadable_ok hshown f hf (not_le.mp hlt)
    rw [← hkept, hnone] at hpresent
    simp at hpresent

/-- The write gate lets a single field through exactly at or above its floor. -/
theorem requireWrite_one (hf : f ∈ td.fields) :
    exec (requireWrite caller td id [f.field] ctx) s = (.ok (), s) ↔
      (s.fieldFloors td.typeId f.field f.permClass).2 ≤ s.callerRank caller id := by
  have hfield := TypeDef.field_eq_some.mpr ⟨hf, rfl⟩
  refine ⟨fun h => requireWrite_ok h f.field (List.mem_cons_self ..) f hfield, fun hle => ?_⟩
  unfold requireWrite
  rw [exec_bind, exec_rankOn]
  simp only
  split
  · rfl
  · simp only [requireWriteEach, hfield]
    rw [exec_bind, exec_query]
    simp only [decide_eq_true hle]
    rfl

/-- A payload of one field passes the check of an update exactly when the field is writable. -/
theorem checkInput_one (hf : f ∈ td.fields) (v : Json) :
    checkInput td (.obj [(f.field, v)]) false = .ok () ↔ f.writable = true := by
  have hfield := TypeDef.field_eq_some.mpr ⟨hf, rfl⟩
  have hmem : f.field ∈ JsonMap.keys (Json.obj [(f.field, v)]).asMap := List.mem_cons_self ..
  refine ⟨fun h => ?_, fun hw => ?_⟩
  · obtain ⟨g, hg, hw⟩ := checkInput_ok h hmem
    rw [hfield] at hg
    rwa [Option.some.inj hg]
  · unfold checkInput
    refine (forM_ok _).mpr fun k hk => ?_
    obtain rfl : k = f.field := by simpa [JsonMap.keys] using hk
    simp [hfield, hw]

/-- The flag of a field in the description of an item. -/
def Flagged (options : Json) (flag field : String) : Prop :=
  ∃ items item, options.get? "fields" = some (.arr items) ∧ item ∈ items ∧
    item.get? "field" = some (.str field) ∧ item.get? flag = some (.bool true)

theorem flagged_iff {options : Json} {readable : List String}
    (h : options.get? "fields" = some (.arr (td.fields.map (fieldJson readable))))
    (hf : f ∈ td.fields) (flag : String) :
    Flagged options flag f.field ↔ (fieldJson readable f).get? flag = some (.bool true) := by
  have hname : ∀ g : FieldDef, (fieldJson readable g).get? "field" = some (.str g.field) := by
    intro g
    simp [fieldJson, Json.mkObj, JsonMap.get?_insert]
  constructor
  · rintro ⟨items, item, hitems, hitem, hfield, hflag⟩
    rw [h] at hitems
    obtain rfl := Json.arr.inj (Option.some.inj hitems)
    obtain ⟨g, hg, rfl⟩ := List.mem_map.mp hitem
    rw [hname] at hfield
    obtain rfl := TypeDef.eq_of_field_eq hg hf (Json.str.inj (Option.some.inj hfield))
    exact hflag
  · intro hflag
    exact ⟨_, _, h, List.mem_map.mpr ⟨f, hf, rfl⟩, hname f, hflag⟩

/-- OPTIONS of an item that the caller views. -/
theorem exec_itemOptions (ctx : RequestCtx)
    (htd : TypeDefCache.get st.registry typeId = some td) (hrow : s.row? id typeId = some row) (hview : s.admits caller td (some id) .view = true) :
    ∃ resp options, exec (itemOptions st ctx caller typeId id) s = (.ok resp, s) ∧
      resp.body = some options ∧
      options.get? "fields" = some (.arr (td.fields.map (fieldJson (s.readable caller td id)))) := by
  obtain ⟨options, hbody, hfields⟩ := exec_optionsBody caller td id s (some row.version)
  unfold itemOptions
  rw [exec_gated htd, if_pos hview, exec_rowBind hrow, exec_bind, exec_permittedVerbs]
  simp only
  rw [exec_bind, hbody]
  exact ⟨_, options, rfl, rfl, hfields⟩

/-- GET of an item that the caller views. -/
theorem exec_itemGet (htd : TypeDefCache.get st.registry typeId = some td)
    (hrow : s.row? id typeId = some row) (hview : s.admits caller td (some id) .view = true)
    (hmiss : ifNoneMatchHit headers row.version = false) {shown : Json}
    (hshown : exec (filterReadable caller td id row.data) s = (.ok shown, s)) :
    exec (itemGet st ctx caller typeId id headers) s =
      (.ok { status := 200, etag := some (etag row.version),
             body := some (entityJson id typeId shown row.version) }, s) := by
  unfold itemGet
  rw [exec_gated htd, if_pos hview, exec_rowBind hrow, exec_bind, hshown]
  simp only [hmiss]
  rfl

/--
What is said and what is done about the fields of an item: a field that is there is called
readable when GET keeps it, and a field is called writable when an update of it alone passes the
check of its input and the write gate.
-/
def FlagsAgree (st : AppState) (ctx : RequestCtx) (caller : Caller) (td : TypeDef)
    (typeId id : String) (headers : HeaderMap) (data : Json) (s : Store) : Prop :=
  ∃ described options got shown,
    exec (itemOptions st ctx caller typeId id) s = (.ok described, s) ∧
    described.body = some options ∧
    exec (itemGet st ctx caller typeId id headers) s = (.ok got, s) ∧
    got.body.bind (fun b => b.get? "data") = some shown ∧
    ∀ f ∈ td.fields,
      ((data.get? f.field).isSome = true →
        (Flagged options "can_read" f.field ↔ shown.get? f.field = data.get? f.field)) ∧
      ∀ v, Flagged options "can_write" f.field ↔
        checkInput td (.obj [(f.field, v)]) false = .ok () ∧
          exec (requireWrite caller td id (JsonMap.keys [(f.field, v)]) ctx) s = (.ok (), s)

theorem flagged_read_iff {options : Json}
    (hfields : options.get? "fields" =
      some (.arr (td.fields.map (fieldJson (s.readable caller td id))))) (hf : f ∈ td.fields) :
    Flagged options "can_read" f.field ↔
      (s.fieldFloors td.typeId f.field f.permClass).1 ≤ s.callerRank caller id := by
  rw [flagged_iff hfields hf, ← mem_readable hf]
  simp [fieldJson, Json.mkObj, JsonMap.get?_insert]

theorem flagged_write_iff {options : Json}
    (hfields : options.get? "fields" =
      some (.arr (td.fields.map (fieldJson (s.readable caller td id))))) (hf : f ∈ td.fields) :
    Flagged options "can_write" f.field ↔ f.writable = true := by
  rw [flagged_iff hfields hf]
  simp [fieldJson, Json.mkObj, JsonMap.get?_insert]

/-- Where the flags agree with the gates, the caller reaches every writable field's floor. -/
theorem FlagsAgree.floor {data : Json}
    (h : FlagsAgree st ctx caller td typeId id headers data s)
    (htd : TypeDefCache.get st.registry typeId = some td) (hrow : s.row? id typeId = some row)
    (hedit : s.admits caller td (some id) .edit = true) (hf : f ∈ td.fields)
    (hw : f.writable = true) :
    (s.fieldFloors td.typeId f.field f.permClass).2 ≤ s.callerRank caller id := by
  obtain ⟨described, options, got, shown, hoptions, hbody, -, -, hall⟩ := h
  obtain ⟨described', options', hoptions', hbody', hfields⟩ :=
    exec_itemOptions ctx htd hrow (admits_view hedit)
  rw [hoptions] at hoptions'
  obtain rfl := Except.ok.inj (congrArg Prod.fst hoptions')
  obtain rfl := Option.some.inj (hbody.symm.trans hbody')
  have hflag := (flagged_write_iff hfields hf).mpr hw
  exact (requireWrite_one hf).mp (((hall f hf).2 .null).mp hflag).2

/--
**The flags agree with the gates exactly when the caller reaches the write floor of every field
that is writable by its class.**  The flag for reading always does.
-/
theorem flags_agree_iff (st : AppState) (ctx : RequestCtx) (caller : Caller) (td : TypeDef)
    (typeId id : String) (headers : HeaderMap) (s : Store) (row : EntityData)
    (htd : TypeDefCache.get st.registry typeId = some td) (hrow : s.row? id typeId = some row)
    (hedit : s.admits caller td (some id) .edit = true)
    (hmiss : ifNoneMatchHit headers row.version = false) :
    FlagsAgree st ctx caller td typeId id headers row.data s ↔
      ∀ f ∈ td.fields, f.writable = true →
        (s.fieldFloors td.typeId f.field f.permClass).2 ≤ s.callerRank caller id := by
  refine ⟨fun h f hf hw => h.floor htd hrow hedit hf hw, fun hcond => ?_⟩
  have hview := admits_view hedit
  obtain ⟨described, options, hoptions, hbody, hfields⟩ := exec_itemOptions ctx htd hrow hview
  obtain ⟨shown, hshown, hkept⟩ := exec_filterReadable caller td id s row.data
  refine ⟨described, options, _, shown, hoptions, hbody,
    exec_itemGet htd hrow hview hmiss hshown, ?_, ?_⟩
  · simp [entityJson, Json.mkObj, JsonMap.get?_insert]
  · intro f hf
    refine ⟨fun hpresent => ?_, fun v => ?_⟩
    · rw [flagged_read_iff hfields hf]
      exact hkept f hf hpresent
    · rw [flagged_write_iff hfields hf, checkInput_one hf]
      exact ⟨fun hw => ⟨hw, (requireWrite_one hf).mpr (hcond f hf hw)⟩, fun h => h.1⟩

end Flags

/-- The email of the shared actor is called writable for a member, whose PATCH of it is refused. -/
theorem member_email_flag_lies :
    sharedActorStore.row? "USR_x" "actor" = some sharedActor ∧
      sharedActorStore.admits alice actorType (some "USR_x") .edit = true ∧
      ¬ FlagsAgree actorState plainCtx alice actorType "actor" "USR_x" {} sharedActor.data
        sharedActorStore := by
  refine ⟨by decide, by decide, ?_⟩
  intro h
  obtain ⟨f, hf, hname, hclass, hw⟩ : ∃ f ∈ actorType.fields, f.field = "email" ∧
      f.permClass = "owner_grade" ∧ f.writable = true := by decide
  have hfloor := h.floor rfl rfl (by decide) hf hw
  rw [hname, hclass] at hfloor
  exact absurd hfloor (by decide)

/-- The shared actor, owned by the one it is shared with. -/
def ownedActorStore : Store :=
  { sharedActorStore with
    memberships := ⟨[{ objectId := "USR_x", memberId := "USR_alice", role := "owner" }],
      by decide⟩ }

/-- To its owner the flags of an actor tell the truth. -/
theorem owner_flags_agree :
    FlagsAgree actorState plainCtx alice actorType "actor" "USR_x" versionOne sharedActor.data
      ownedActorStore := by
  refine (flags_agree_iff actorState plainCtx alice actorType "actor" "USR_x" versionOne
    ownedActorStore sharedActor rfl rfl (by decide) rfl).mpr ?_
  decide

end Numu
