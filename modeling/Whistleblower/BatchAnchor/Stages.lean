import Whistleblower.BatchAnchor.Session

/-!
# Rules for the functions of a run

How a run of `batch-anchor` is verified in an arbitrary contract about an arbitrary world. There is
a rule for each function of `main.rs` that calls an operation; what it asks for is what the calls do
in that world, and no more.

`Stages` puts them together. An iteration polls, gathers, submits, records and saves the cursor;
`Stages` has an assertion for each point in between, and a triple for each step.
`Stages.triple_run` is the walk through the iteration and the loop, which is the same whatever the
assertions say.

A real run is meant: a dry run saves the cursor without having submitted anything.
-/

namespace Whistleblower.BatchAnchor

/-! ### Rules -/

section Rules

variable {σ : Type} {S : Shared Op.Ret σ} {C : Contract S} {K : Crates} {A B : σ → Prop}

/-- A call that leaves the world alone, and whose answer says nothing of it. -/
theorem triple_idle {o : Op} (hA : C.Stable A) (hidle : ∀ w r w', S.performs o w r w' → w' = w) :
    C.Triple A (.op o .pure : Proc o.Ret) fun _ ↦ A :=
  Contract.triple_query (F := fun _ _ ↦ True) hA (fun w r w' _ h ↦ ⟨hidle w r w' h, trivial⟩)
    fun _ ↦ Contract.triple_pure fun _ _ h ↦ h.1

theorem triple_loadCursor_of {R : UInt64 → σ → Prop}
    (hselect : ∀ w r w', C.Inv w → S.performs .selectCursor w r w' →
      w' = w ∧ ∀ cell, r = .ok cell → R (cursorOfCell cell) w) :
    C.Triple (fun _ ↦ True) loadCursor R := by
  refine Contract.triple_query (fun _ _ _ ↦ trivial) hselect fun r ↦ ?_
  cases r with
  | ok cell => exact Contract.triple_pure fun w _ h ↦ h.2 cell rfl
  | error e => exact Contract.triple_fail

/-- A poll of a queue file. `T` is what the file may hold when it is read. -/
theorem triple_pollDelivery_of {source path : String}
    (hsource : stripPrefix "file:" source = some path) {topic : String} {cursor : UInt64}
    {limit : ℕ} (hA : C.Stable A) {T : String → σ → Prop} {R : List DeliveryMsg → σ → Prop}
    (hread : ∀ w r w', C.Inv w → S.performs (.readToString path) w r w' →
      w' = w ∧ ∀ text, r = .ok text → T text w)
    (hpage : ∀ w text msgs, C.Inv w → A w → T text w → pollText K text cursor limit = .ok msgs →
      R msgs w)
    (hmissing : ∀ w, C.Inv w → A w → R [] w) :
    C.Triple A (pollDelivery K source topic cursor limit) R := by
  rw [pollDelivery, hsource]
  refine Contract.triple_query hA hread fun r ↦ ?_
  cases r with
  | ok text =>
    show C.Triple _ (Process.ofExcept (pollText K text cursor limit)) R
    cases hpoll : pollText K text cursor limit with
    | ok msgs =>
      exact Contract.triple_pure fun w hinv h ↦ hpage w text msgs hinv h.1 (h.2 _ rfl) hpoll
    | error e => exact Contract.triple_fail
  | error e =>
    cases e with
    | notFound => exact Contract.triple_pure fun w hinv h ↦ hmissing w hinv h.1
    | other => exact Contract.triple_fail

theorem triple_isAnchored_of {cid : String} (hA : C.Stable A) {R : σ → Prop}
    (hcount : ∀ w r w', C.Inv w → S.performs (.countAnchored cid) w r w' →
      w' = w ∧ ∀ n, r = .ok n → 0 < n → R w) :
    C.Triple A (isAnchored cid) fun b w ↦ A w ∧ (b = true → R w) := by
  refine Contract.triple_query hA hcount fun r ↦ ?_
  cases r with
  | ok n =>
    exact Contract.triple_pure fun w _ h ↦ ⟨h.1, fun hpos ↦ h.2 n rfl (of_decide_eq_true hpos)⟩
  | error e => exact Contract.triple_fail

/-- **The gathering loop** takes an entry from every message but those that have a row. By induction
on the messages; that a row has been seen is added to the assertion. -/
theorem triple_gather_of {R : String → σ → Prop} (hR : ∀ cid, C.Stable (R cid))
    (hcount : ∀ cid w r w', C.Inv w → S.performs (.countAnchored cid) w r w' →
      w' = w ∧ ∀ n, r = .ok n → 0 < n → R cid w)
    (hA : C.Stable A) (msgs : List DeliveryMsg) (cursor : UInt64) (entries : List AnchorEntry) :
    C.Triple A (gather K msgs cursor entries) fun r w ↦ r.1 = newest cursor msgs ∧ A w ∧
      ∃ kept : List DeliveryMsg, kept.Sublist msgs ∧
        r.2 = entries ++ kept.filterMap (entryOf K ∅) ∧
        ∀ m ∈ msgs, m ∈ kept ∨ R m.payload.cid w := by
  induction msgs generalizing A cursor entries with
  | nil =>
    refine Contract.triple_pure fun w _ h ↦ ⟨rfl, h, [], .slnil, ?_, nofun⟩
    rw [List.filterMap_nil, List.append_nil]
  | cons m msgs ih =>
    rw [gather, newest_cons]
    refine Contract.triple_bind (triple_isAnchored_of hA (hcount m.payload.cid)) fun b ↦ ?_
    -- an entry or none, the message has been looked at
    have hkept : ∀ entries', entries' = entries ++ [m].filterMap (entryOf K ∅) →
        C.Triple (fun w ↦ A w ∧ (b = true → R m.payload.cid w))
          (gather K msgs (max cursor m.seq) entries') fun r w ↦
            r.1 = newest (max cursor m.seq) msgs ∧ A w ∧
              ∃ kept : List DeliveryMsg, kept.Sublist (m :: msgs) ∧
                r.2 = entries ++ kept.filterMap (entryOf K ∅) ∧
                ∀ n ∈ m :: msgs, n ∈ kept ∨ R n.payload.cid w := by
      rintro entries' rfl
      refine (ih hA (max cursor m.seq) _).weaken (fun _ _ h ↦ h.1) ?_
      rintro ⟨newCursor, entries'⟩ w - ⟨hnewest, hw, kept, hsub, heq, hall⟩
      refine ⟨hnewest, hw, m :: kept, hsub.cons_cons m, ?_, fun n hn ↦ ?_⟩
      · rw [heq, List.append_assoc, ← List.filterMap_append, List.singleton_append]
      · rcases List.mem_cons.1 hn with rfl | hn
        · exact Or.inl List.mem_cons_self
        · exact (hall n hn).imp_left (List.mem_cons_of_mem _)
    cases b with
    | true =>
      have hseen : C.Stable fun w ↦ A w ∧ R m.payload.cid w := fun hinv hrely h ↦
        ⟨hA hinv hrely h.1, hR _ hinv hrely h.2⟩
      refine (ih hseen (max cursor m.seq) entries).weaken (fun _ _ h ↦ ⟨h.1, h.2 rfl⟩) ?_
      rintro ⟨newCursor, entries'⟩ w - ⟨hnewest, ⟨hw, hrow⟩, kept, hsub, heq, hall⟩
      refine ⟨hnewest, hw, kept, hsub.cons m, heq, fun n hn ↦ ?_⟩
      rcases List.mem_cons.1 hn with rfl | hn
      · exact Or.inr hrow
      · exact hall n hn
    | false =>
      rw [if_neg Bool.false_ne_true]
      cases hcid : decodeCid K m.payload.cid with
      | error e =>
        refine hkept entries ?_
        rw [List.filterMap_cons_none, List.filterMap_nil, List.append_nil]
        rw [entryOf, if_neg (Finset.notMem_empty _), hcid]
      | ok cid =>
        refine hkept _ ?_
        rw [List.filterMap_cons_some, List.filterMap_nil]
        rw [entryOf, if_neg (Finset.notMem_empty _), hcid]

/-- **Submitting.** The run goes on after success alone. -/
theorem triple_anchorViaSpel_of {cli : Cfg} {entries : List AnchorEntry} {timestamp : UInt64}
    (hA : C.Stable A)
    (hspel : ∀ w r w', C.Inv w → A w →
      S.performs (.spel (spelCommand cli entries timestamp)) w r w' →
      C.Inv w' ∧ C.Guarantee w w' ∧ ∀ out, r = .ok out → out.success = true → B w') :
    C.Triple A (anchorViaSpel cli entries timestamp) fun _ ↦ B := by
  refine Contract.triple_op (R := fun (r : Except String Output) w ↦
    ∀ out, r = .ok out → out.success = true → B w) hA hspel fun r ↦ ?_
  cases r with
  | error e => exact Contract.triple_fail
  | ok out =>
    show C.Triple _ (if out.success = true then _ else _) _
    split
    · next hsuccess => exact Contract.triple_pure fun w _ h ↦ h out rfl hsuccess
    · exact Contract.triple_fail

/-- **Recording**, by induction on the entries. -/
theorem triple_markAll_of (hB : C.Stable B) (entries : List AnchorEntry)
    (hinsert : ∀ e ∈ entries, ∀ w r w', C.Inv w → B w →
      S.performs (.insertAnchored e.2.2) w r w' → C.Inv w' ∧ C.Guarantee w w' ∧ B w') :
    C.Triple B (markAll entries) fun _ ↦ B := by
  induction entries with
  | nil => exact Contract.triple_pure fun _ _ h ↦ h
  | cons e entries ih =>
    rw [markAll]
    refine Contract.triple_bind (Contract.triple_op (R := fun _ ↦ B) hB
      (hinsert e List.mem_cons_self) fun r ↦ ?_) fun _ ↦
        ih fun e' he' ↦ hinsert e' (List.mem_cons_of_mem _ he')
    cases r with
    | ok _ => exact Contract.triple_pure fun _ _ h ↦ h
    | error e => exact Contract.triple_fail

theorem triple_saveCursor_of {cursor : UInt64} (hA : C.Stable A)
    (hreplace : ∀ w r w', C.Inv w → A w →
      S.performs (.replaceCursor (Decimal.render cursor)) w r w' →
      C.Inv w' ∧ C.Guarantee w w' ∧ (r = .ok () → B w')) :
    C.Triple A (saveCursor cursor) fun _ ↦ B := by
  refine Contract.triple_op (R := fun (r : Except String Unit) w ↦ r = .ok () → B w) hA hreplace
    fun r ↦ ?_
  cases r with
  | ok _ => exact Contract.triple_pure fun _ _ h ↦ h rfl
  | error e => exact Contract.triple_fail

end Rules

/-! ### The stages -/

/-- The assertions at the points of an iteration, and the proof that each stage leads from one to
the next. -/
structure Stages {σ : Type} {S : Shared Op.Ret σ} (C : Contract S) (K : Crates) (cli : Cfg)
    (args : RunArgs) where
  /-- An iteration may start with this cursor. -/
  Ready : UInt64 → σ → Prop
  /-- These messages have been polled. -/
  Polled : UInt64 → List DeliveryMsg → σ → Prop
  /-- These entries have been collected from them. -/
  Gathered : UInt64 → List DeliveryMsg → List AnchorEntry → σ → Prop
  /-- The entries have been submitted, with success. -/
  Submitted : UInt64 → List DeliveryMsg → List AnchorEntry → σ → Prop
  /-- The messages may be left behind. -/
  Settled : UInt64 → List DeliveryMsg → σ → Prop
  load : C.Triple (fun _ ↦ True) loadCursor Ready
  poll : ∀ cursor, C.Triple (Ready cursor)
    (pollDelivery K cli.deliverySource args.topic cursor args.batchSize) (Polled cursor)
  /-- Waiting for messages, after a poll that has returned none. -/
  wait : ∀ cursor, C.Triple (Polled cursor []) (sleep 2) fun _ ↦ Ready cursor
  gather : ∀ cursor msgs, C.Triple (Polled cursor msgs) (gather K msgs cursor [])
    fun r w ↦ r.1 = newest cursor msgs ∧ Gathered cursor msgs r.2 w
  /-- Without entries there is nothing to submit. -/
  settled : ∀ cursor msgs w, C.Inv w → Gathered cursor msgs [] w → Settled cursor msgs w
  clock : ∀ cursor msgs entries,
    C.Triple (Gathered cursor msgs entries) now fun _ ↦ Gathered cursor msgs entries
  submit : ∀ cursor msgs entries timestamp, entries ≠ [] →
    C.Triple (Gathered cursor msgs entries) (anchorViaSpel cli entries timestamp)
      fun _ ↦ Submitted cursor msgs entries
  record : ∀ cursor msgs entries, C.Triple (Submitted cursor msgs entries) (markAll entries)
    fun _ ↦ Settled cursor msgs
  save : ∀ cursor msgs, C.Triple (Settled cursor msgs) (saveCursor (newest cursor msgs))
    fun _ ↦ Ready (newest cursor msgs)

namespace Stages

/-! ### The walk through a run -/

variable {σ : Type} {S : Shared Op.Ret σ} {C : Contract S} {K : Crates} {cli : Cfg} {args : RunArgs}
  (stages : Stages C K cli args)

/-- The next iteration may start, if there is one. -/
def Continues (next : Next) (w : σ) : Prop :=
  ∀ cursor batchesSubmitted, next = .again cursor batchesSubmitted → stages.Ready cursor w

theorem continues_done (w : σ) : stages.Continues .done w := by
  intro cursor b heq
  cases heq

theorem continues_unlessOnce {cursor : UInt64} {w : σ} (h : stages.Ready cursor w)
    (batchesSubmitted : ℕ) :
    stages.Continues (Next.unlessOnce args cursor batchesSubmitted) w := by
  intro cursor' b heq
  rwa [Next.cursor_of_unlessOnce heq]

/-- Saving the cursor, and then deciding whether to go on. -/
theorem triple_save (cursor : UInt64) (msgs : List DeliveryMsg) (batchesSubmitted : ℕ) :
    C.Triple (stages.Settled cursor msgs)
      (saveCursor (newest cursor msgs) >>= fun _ ↦
        Process.pure (Next.unlessOnce args (newest cursor msgs) batchesSubmitted))
      stages.Continues :=
  Contract.triple_bind (stages.save cursor msgs) fun _ ↦
    Contract.triple_pure fun _ _ h ↦ stages.continues_unlessOnce h _

theorem triple_process (hdry : args.dryRun = false) (cursor : UInt64) (batchesSubmitted : ℕ)
    (msgs : List DeliveryMsg) :
    C.Triple (stages.Polled cursor msgs) (process K cli args cursor batchesSubmitted msgs)
      stages.Continues := by
  rw [process]
  refine Contract.triple_bind (stages.gather cursor msgs) fun r ↦ ?_
  obtain ⟨newCursor, entries⟩ := r
  refine Contract.triple_of_imp fun hnewest ↦ ?_
  obtain rfl : newCursor = newest cursor msgs := hnewest
  show C.Triple _ (if entries = [] then _ else _) _
  split
  · next hempty =>
    subst hempty
    exact (stages.triple_save cursor msgs _).weaken (stages.settled cursor msgs) fun _ _ _ h ↦ h
  · next hne =>
    refine Contract.triple_bind (stages.clock cursor msgs entries) fun timestamp ↦ ?_
    rw [hdry]
    show C.Triple _ (anchorViaSpel cli entries timestamp >>= fun _ ↦
      markAll entries >>= fun _ ↦ _) _
    refine Contract.triple_bind (stages.submit cursor msgs entries timestamp hne) fun _ ↦ ?_
    exact Contract.triple_bind (stages.record cursor msgs entries) fun _ ↦
      stages.triple_save cursor msgs _

theorem triple_iteration (hdry : args.dryRun = false) (cursor : UInt64) (batchesSubmitted : ℕ) :
    C.Triple (stages.Ready cursor) (iteration K cli args cursor batchesSubmitted)
      stages.Continues := by
  rw [iteration]
  split
  · exact Contract.triple_pure fun w _ _ ↦ stages.continues_done w
  · refine Contract.triple_bind (stages.poll cursor) fun msgs ↦ ?_
    show C.Triple _ (if msgs = [] then _ else _) _
    split
    · next hempty =>
      subst hempty
      split
      · exact Contract.triple_pure fun w _ _ ↦ stages.continues_done w
      · refine Contract.triple_bind (stages.wait cursor) fun _ ↦
          Contract.triple_pure fun w _ hready cursor' b heq ↦ ?_
        obtain ⟨rfl, -⟩ := Next.again.inj heq
        exact hready
    · exact stages.triple_process hdry cursor batchesSubmitted msgs

/-- **The loop**, by induction on the number of iterations. -/
theorem triple_runLoop (hdry : args.dryRun = false) (n : ℕ) (cursor : UInt64)
    (batchesSubmitted : ℕ) :
    C.Triple (stages.Ready cursor) (runLoop K cli args n cursor batchesSubmitted)
      fun _ _ ↦ True := by
  induction n generalizing cursor batchesSubmitted with
  | zero => exact Contract.triple_pure fun _ _ _ ↦ trivial
  | succ n ih =>
    rw [runLoop]
    refine Contract.triple_bind (stages.triple_iteration hdry cursor batchesSubmitted)
      fun next ↦ ?_
    cases next with
    | done => exact Contract.triple_pure fun _ _ _ ↦ trivial
    | again cursor' b =>
      exact (ih cursor' b).weaken (fun _ _ h ↦ h cursor' b rfl) fun _ _ _ h ↦ h

/-- **A run whose stages are in order** honours the contract. -/
theorem triple_run (stages : Stages C K cli args) (hdry : args.dryRun = false) (n : ℕ) :
    C.Triple (fun _ ↦ True) (run K cli args n) fun _ _ ↦ True :=
  Contract.triple_bind stages.load fun cursor ↦ stages.triple_runLoop hdry n cursor 0

end Stages

end Whistleblower.BatchAnchor
