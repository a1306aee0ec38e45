import Whistleblower.Foundations.OnceOnly
import Whistleblower.Indexer.EnvelopeHash
import Whistleblower.Indexer.Session

/-!
# Broadcasts at the same time

Any number of calls of `broadcast` on one indexer, for any envelopes, in any order of their steps.
A call takes three at most: it checks the set and enters its CID, it sends, and it takes its CID out
again if the send has failed.

This is `OnceOnly`, with CIDs for keys and sends for the work: `Stage` lists what a call can still
have to do, and `abstraction` forgets everything but the set, the CIDs sent and how far each call
has got. So what holds of every run there holds here.
-/

namespace Whistleblower.Indexer

open OnceOnly

/-! ### The CIDs sent -/

section Delivered

variable (config : IndexerConfig)

open Classical in
/-- The CID of the envelope a call has sent, if it has sent one. -/
noncomputable def deliveredCid (call : Call) : Option String :=
  if h : ∃ p, Delivers config p call then some h.choose.cid else none

/-- The CIDs of the envelopes sent in the session, in order. -/
noncomputable def Session.deliveredCids (s : Session) : List String :=
  s.history.filterMap (deliveredCid config)

variable {config} {call : Call} {cid : String}

theorem deliveredCid_eq_some :
    deliveredCid config call = some cid ↔ ∃ p, Delivers config p call ∧ p.cid = cid := by
  rw [deliveredCid]
  split
  · rename_i h
    rw [Option.some.injEq]
    refine ⟨fun hcid ↦ ⟨_, h.choose_spec, hcid⟩, fun ⟨p, hp, hcid⟩ ↦ ?_⟩
    rw [h.choose_spec.unique hp, hcid]
  · rename_i h
    refine iff_of_false (by simp) fun ⟨p, hp, _⟩ ↦ h ⟨p, hp⟩

theorem mem_deliveredCids {s : Session} :
    cid ∈ s.deliveredCids config ↔ ∃ p, p.cid = cid ∧ s.Delivered config p := by
  rw [Session.deliveredCids, List.mem_filterMap]
  simp only [deliveredCid_eq_some, Session.Delivered]
  constructor
  · rintro ⟨call, hcall, p, hp, hcid⟩
    exact ⟨p, hcid, call, hcall, hp⟩
  · rintro ⟨p, hcid, call, hcall, hp⟩
    exact ⟨call, hcall, p, hp, hcid⟩

theorem nodup_deliveredCids {s : Session} :
    (s.deliveredCids config).Nodup ↔
      s.history.Pairwise fun call call' ↦
        ∀ p q, Delivers config p call → Delivers config q call' → p.cid ≠ q.cid := by
  rw [Session.deliveredCids, List.Nodup, List.pairwise_filterMap]
  simp only [deliveredCid_eq_some]
  refine List.Pairwise.iff fun call call' ↦ ⟨fun h p q hp hq ↦ ?_, fun h cid hcid cid' hcid' ↦ ?_⟩
  · exact h p.cid ⟨p, hp, rfl⟩ q.cid ⟨q, hq, rfl⟩
  · obtain ⟨p, hp, rfl⟩ := hcid
    obtain ⟨q, hq, rfl⟩ := hcid'
    exact h p q hp hq

end Delivered

/-! ### What a call can still have to do -/

variable (config : IndexerConfig)

/-- How far a call has got, by what it does next. -/
def phaseOf : Proc Unit → Phase
  | .op (.insertBroadcasted _) _ => .waiting
  | .op (.removeBroadcasted _) _ => .failed
  | .op _ _ => .working
  | .pure _ => .succeeded
  | .fail _ => .gaveUp

/-- The call has passed its check and not returned yet. -/
def InFlight (p : Proc Unit) : Prop :=
  (phaseOf p).InFlight

/-- The call is at its send of the envelope. -/
def Sending (payload : BroadcastPayload) (p : Proc Unit) : Prop :=
  ∃ o k, p = .op o k ∧ sendOp config payload = some o

/-- What can be left of a broadcast. -/
inductive Stage (payload : BroadcastPayload) : Proc Unit → Prop
  | waiting : Stage payload (broadcast config payload)
  | working {o k} : sendOp config payload = some o →
      (∀ r, (succeeded o r = true → k r = .pure ()) ∧
        (succeeded o r = false → ∃ text, k r = settle payload.cid (.error text))) →
      Stage payload (.op o k)
  | failed (text : String) : Stage payload (settle payload.cid (.error text))
  | succeeded : Stage payload (.pure ())
  | gaveUp (text : String) : Stage payload (bail text)

variable {config} {payload : BroadcastPayload}

/-- What a call does once it has checked the set. -/
theorem broadcast_eq (payload : BroadcastPayload) :
    broadcast config payload = .op (.insertBroadcasted payload.cid) fun fresh ↦
      if fresh then result (send config payload) >>= settle payload.cid else .pure () :=
  rfl

theorem phaseOf_of_sendOp {o : Op} (h : sendOp config payload = some o)
    (k : o.Ret → Proc Unit) : phaseOf (.op o k) = .working := by
  obtain ⟨bin, dir, expr, -, -, rfl⟩ | ⟨-, rfl⟩ := sendOp_cases h
  · rfl
  · rfl

theorem Sending.phaseOf_eq {p : Proc Unit} (h : Sending config payload p) :
    phaseOf p = .working := by
  obtain ⟨o, k, rfl, ho⟩ := h
  exact phaseOf_of_sendOp ho k

variable (config) in
/-- A call that has entered its CID is at its send, or has failed before it. -/
theorem stage_entered (payload : BroadcastPayload) :
    InFlight (result (send config payload) >>= settle payload.cid) ∧
      Stage config payload (result (send config payload) >>= settle payload.cid) := by
  cases ho : sendOp config payload with
  | none =>
    obtain ⟨text, hsend⟩ := send_of_none ho
    rw [hsend]
    exact ⟨.inr rfl, .failed text⟩
  | some o =>
    obtain ⟨k, hsend, hk⟩ := send_of_some ho
    rw [hsend]
    refine ⟨.inl (phaseOf_of_sendOp ho _), .working ho fun r ↦ ⟨fun hok ↦ ?_, fun hfail ↦ ?_⟩⟩
    · show result (k r) >>= settle payload.cid = _
      rw [(hk r).1 hok]
      rfl
    · obtain ⟨text, htext⟩ := (hk r).2 hfail
      refine ⟨text, ?_⟩
      show result (k r) >>= settle payload.cid = _
      rw [htext]
      rfl

/-- Only a call that has not begun is at its check. -/
theorem Stage.eq_broadcast {p : Proc Unit} (h : Stage config payload p)
    (hphase : phaseOf p = .waiting) : p = broadcast config payload := by
  cases h with
  | waiting => rfl
  | working ho hk =>
    rw [phaseOf_of_sendOp ho] at hphase
    cases hphase
  | failed text => cases hphase
  | succeeded => cases hphase
  | gaveUp text => cases hphase

/-- A call sends its own envelope and no other. -/
theorem Stage.eq_of_sending {p : Proc Unit} {q : BroadcastPayload} (h : Stage config payload p)
    (hsending : Sending config q p) : q = payload := by
  obtain ⟨o, k, heq, ho⟩ := hsending
  have hphase : phaseOf p = .working := heq ▸ phaseOf_of_sendOp ho k
  cases h with
  | waiting => cases hphase
  | working ho' hk =>
    obtain ⟨rfl, -⟩ := Process.op.inj heq
    exact sendOp_inj ho ho'
  | failed text => cases hphase
  | succeeded => cases hphase
  | gaveUp text => cases hphase

theorem phaseOf_eq_succeeded {p : Proc Unit} : phaseOf p = .succeeded ↔ p = .pure () := by
  cases p with
  | pure a => exact iff_of_true rfl rfl
  | fail e => exact iff_of_false (by simp [phaseOf]) (by simp)
  | op o k => exact iff_of_false (by cases o <;> simp [phaseOf]) (by simp)

/-! ### Calls at the same time -/

variable {ι : Type}

/-- Calls of `broadcast` on one indexer. -/
abbrev Broadcasts (ι : Type) := Pool Op.Ret Failure Unit Session ι

variable (config) in
/-- What matters of the calls and the session. -/
noncomputable def abstraction (c : Broadcasts ι) : OnceOnly.State ι String where
  entered := c.world.broadcasted
  done := c.world.deliveredCids config
  phase i := phaseOf (c.process i)

variable (config) in
/-- A new indexer, on which no call has begun. -/
structure Begins (payload : ι → BroadcastPayload) (c : Broadcasts ι) : Prop where
  world : c.world = Session.new
  process : ∀ i, c.process i = broadcast config (payload i)

variable {payload : ι → BroadcastPayload} {c d : Broadcasts ι} {i : ι}

theorem Begins.initial (h : Begins config payload c) : Initial (abstraction config c) where
  entered := by
    show (c.world.broadcasted : Set String) = ∅
    rw [h.world]
    exact Finset.coe_empty
  done := by
    show c.world.deliveredCids config = []
    rw [h.world]
    rfl
  phase i := by
    show phaseOf (c.process i) = .waiting
    rw [h.process]
    rfl

theorem Begins.stage (h : Begins config payload c) (i : ι) :
    Stage config (payload i) (c.process i) := by
  rw [h.process]
  exact .waiting

variable [DecidableEq ι]

/-- A call of an indexer makes its next step. -/
abbrev Broadcasts.Moves : ι → Broadcasts ι → Broadcasts ι → Prop :=
  Pool.Moves Session.performs

theorem abstraction_advance (c : Broadcasts ι) (i : ι) (p : Proc Unit) (t : Session) :
    abstraction config (c.advance i p t) =
      { (abstraction config c).goTo i (phaseOf p) with
        entered := t.broadcasted
        done := t.deliveredCids config } := by
  have hphase : (fun j ↦ phaseOf (Function.update c.process i p j)) =
      Function.update (fun j ↦ phaseOf (c.process j)) i (phaseOf p) :=
    Function.comp_update phaseOf c.process i p
  rw [abstraction, Pool.process_advance, hphase]
  rfl

/-- The other calls stay where they are. -/
theorem stage_advance (hstage : ∀ j, Stage config (payload j) (c.process j)) {p : Proc Unit}
    (hp : Stage config (payload i) p) (t : Session) (j : ι) :
    Stage config (payload j) ((c.advance i p t).process j) := by
  rw [Pool.process_advance]
  by_cases hji : j = i
  · rw [hji, Function.update_self]
    exact hp
  · rw [Function.update_of_ne hji]
    exact hstage j

/-- A call at its check. -/
theorem move_check (hstage : ∀ j, Stage config (payload j) (c.process j))
    (hi : phaseOf (c.process i) = .waiting) {fresh : Bool}
    (hfresh : fresh = decide ((payload i).cid ∉ c.world.broadcasted)) {p : Proc Unit}
    (hp : p = if fresh then result (send config (payload i)) >>= settle (payload i).cid
      else .pure ()) :
    let d := c.advance i p (c.world.after (.insertBroadcasted (payload i).cid) fresh)
    Move (fun i ↦ (payload i).cid) i (abstraction config c) (abstraction config d) ∧
      ∀ j, Stage config (payload j) (d.process j) := by
  show Move _ i _ (abstraction config (c.advance i p
    { c.world with broadcasted := insert (payload i).cid c.world.broadcasted })) ∧ _
  rw [abstraction_advance]
  by_cases hmem : (payload i).cid ∈ c.world.broadcasted
  · rw [hfresh, decide_eq_false (not_not.2 hmem)] at hp
    rw [hp, Finset.insert_eq_of_mem hmem]
    exact ⟨.skip hi (Finset.mem_coe.2 hmem), stage_advance hstage .succeeded _⟩
  · obtain ⟨hinFlight, hnext⟩ := stage_entered config (payload i)
    rw [hfresh, decide_eq_true hmem] at hp
    rw [hp, Finset.coe_insert]
    exact ⟨.enter hi (Finset.mem_coe.not.2 hmem) hinFlight, stage_advance hstage hnext _⟩

/-- A call at its send. -/
theorem move_send (hstage : ∀ j, Stage config (payload j) (c.process j)) {o : Op}
    {k : o.Ret → Proc Unit} (hi : c.process i = .op o k) (ho : sendOp config (payload i) = some o)
    (hk : ∀ r, (succeeded o r = true → k r = .pure ()) ∧
      (succeeded o r = false → ∃ text, k r = settle (payload i).cid (.error text))) (r : o.Ret) :
    let d := c.advance i (k r) (c.world.after o r)
    Move (fun i ↦ (payload i).cid) i (abstraction config c) (abstraction config d) ∧
      ∀ j, Stage config (payload j) (d.process j) := by
  have hworking : phaseOf (c.process i) = .working := hi ▸ phaseOf_of_sendOp ho k
  show Move _ i _ (abstraction config (c.advance i (k r) (c.world.after o r))) ∧ _
  rw [abstraction_advance, after_of_sendOp ho, Session.deliveredCids, List.filterMap_append]
  cases hr : succeeded o r with
  | true =>
    have hcid : deliveredCid config ⟨o, r⟩ = some (payload i).cid :=
      deliveredCid_eq_some.2 ⟨payload i, ⟨ho, hr⟩, rfl⟩
    rw [(hk r).1 hr, List.filterMap_cons_some hcid, List.filterMap_nil]
    exact ⟨.succeed hworking, stage_advance hstage .succeeded _⟩
  | false =>
    have hcid : deliveredCid config ⟨o, r⟩ = none := by
      refine Option.eq_none_iff_forall_ne_some.2 fun cid hcid ↦ ?_
      obtain ⟨p, hp, -⟩ := deliveredCid_eq_some.1 hcid
      exact absurd (hp.2.symm.trans hr) (by simp)
    obtain ⟨text, htext⟩ := (hk r).2 hr
    rw [htext, List.filterMap_cons_none hcid, List.filterMap_nil, List.append_nil]
    exact ⟨.fail hworking, stage_advance hstage (.failed text) _⟩

/-- A call whose send has failed. -/
theorem move_remove (hstage : ∀ j, Stage config (payload j) (c.process j)) {text : String}
    (hi : c.process i = settle (payload i).cid (.error text)) :
    let d := c.advance i (bail text) (c.world.after (.removeBroadcasted (payload i).cid) ())
    Move (fun i ↦ (payload i).cid) i (abstraction config c) (abstraction config d) ∧
      ∀ j, Stage config (payload j) (d.process j) := by
  have hfailed : phaseOf (c.process i) = .failed := by
    rw [hi]
    rfl
  show Move _ i _ (abstraction config (c.advance i (bail text)
    { c.world with broadcasted := c.world.broadcasted.erase (payload i).cid })) ∧ _
  rw [abstraction_advance, Finset.coe_erase]
  exact ⟨.leave hfailed, stage_advance hstage (.gaveUp text) _⟩

/-- **Every step of a call is a move of `OnceOnly`**, and leaves something that is left of a
broadcast. -/
theorem move_of_moves (hstage : ∀ j, Stage config (payload j) (c.process j))
    (hmoves : Broadcasts.Moves i c d) :
    Move (fun i ↦ (payload i).cid) i (abstraction config c) (abstraction config d) ∧
      ∀ j, Stage config (payload j) (d.process j) := by
  obtain @⟨o, k, r, t, hprocess, hanswers, rfl⟩ := hmoves
  have hi := hstage i
  generalize hp : c.process i = p at hi
  have heq := hp.symm.trans hprocess
  cases hi with
  | waiting =>
    rw [broadcast_eq] at heq
    obtain ⟨rfl, hk⟩ := Process.op.inj heq
    rw [← eq_of_heq hk]
    exact move_check hstage (by rw [hp]; rfl) hanswers rfl
  | working ho hk =>
    obtain ⟨rfl, hk'⟩ := Process.op.inj heq
    rw [eq_of_heq hk'] at hk
    exact move_send hstage hprocess ho hk r
  | failed text =>
    obtain ⟨rfl, hk⟩ := Process.op.inj heq
    rw [← eq_of_heq hk]
    exact move_remove hstage hp
  | succeeded => cases heq
  | gaveUp text => cases heq

/-! ### Runs -/

variable {run : ℕ → Broadcasts ι} {actor : ℕ → Option ι}

theorem stage_of_run (hrun : IsRun Broadcasts.Moves run actor)
    (hbegins : Begins config payload (run 0)) (n : ℕ) (i : ι) :
    Stage config (payload i) ((run n).process i) := by
  have hmove : ∀ (i : ι) (c d : Broadcasts ι), (∀ j, Stage config (payload j) (c.process j)) →
      Broadcasts.Moves i c d → ∀ j, Stage config (payload j) (d.process j) :=
    fun _ _ _ hstage hmoves ↦ (move_of_moves hstage hmoves).2
  exact hrun.invariant hbegins.stage hmove n i

/-- **A run of the calls is a run of `OnceOnly`.** -/
theorem isRun_abstraction (hrun : IsRun Broadcasts.Moves run actor)
    (hbegins : Begins config payload (run 0)) :
    IsRun (Move fun i ↦ (payload i).cid) (fun n ↦ abstraction config (run n)) actor :=
  hrun.map (abstraction config) fun n _ hmoves ↦
    (move_of_moves (stage_of_run hrun hbegins n) hmoves).1

/-! ### Two calls for one CID -/

/-- The indexer of the crate's own tests, whose delivery service does not exist. -/
def testConfig : IndexerConfig where
  storageUrl := "http://127.0.0.1:8080"
  deliveryUrl := "http://127.0.0.1:1"
  deliveryTopic := "whistleblower/v1/documents"
  backend := .http

/-- An outside with nothing in it: no service and no binary can be reached. -/
def unreachable : Session.Outside
  | _, .envVar _ => none
  | _, .tempDir => []
  | _, .writeFile _ _ => .ok ()
  | _, .removeFile _ => .ok ()
  | _, .logoscore _ => .error "No such file or directory (os error 2)"
  | _, .postFile _ _ => .error "error sending request"
  | _, .postPayload _ _ => .error "error sending request"
  | _, .spel _ => .error "No such file or directory (os error 2)"
  | _, .sleep _ => ()
  | _, .insertBroadcasted _ => true
  | _, .removeBroadcasted _ => ()

/-- An envelope that both calls broadcast. -/
def freshPayload : BroadcastPayload := ⟨"QmFresh", sampleEnvelope⟩

/-- The first call checks the set, the second does, and the first goes on to the end. -/
def overlappingSchedule : ℕ → Option Bool
  | 0 => some false
  | 1 => some true
  | 2 => some false
  | 3 => some false
  | _ => none

/-- The two calls in that order. -/
def overlappingRun : ℕ → Broadcasts Bool :=
  Pool.play (Session.respond unreachable)
    ⟨Session.new, fun _ ↦ broadcast testConfig freshPayload⟩ overlappingSchedule

/-- Who moves in it. -/
def overlappingActor (n : ℕ) : Option Bool :=
  (overlappingSchedule n).filter (overlappingRun n).running

theorem isRun_overlappingRun : IsRun Broadcasts.Moves overlappingRun overlappingActor :=
  Pool.isRun_play (Session.performs_respond unreachable) _ _

theorem begins_overlappingRun :
    Begins testConfig (fun _ ↦ freshPayload) (overlappingRun 0) where
  world := rfl
  process _ := rfl

/-- The second call has returned `Ok`, and the one send there was has failed. -/
theorem overlappingRun_end :
    (overlappingRun 4).process true = .pure () ∧
      (overlappingRun 4).world.history =
        [⟨.postPayload "http://127.0.0.1:1/publish/whistleblower/v1/documents" freshPayload,
          .error "error sending request"⟩] :=
  ⟨rfl, rfl⟩

/-! ### What is sent -/

variable (config) in
/-- Nothing is sent twice, and the set knows what has been sent. -/
structure Exact (c : Broadcasts ι) : Prop where
  /-- No two sends for one CID are in flight at once. -/
  one_in_flight : ∀ i j p q, Sending config p (c.process i) → Sending config q (c.process j) →
    p.cid = q.cid → i = j
  /-- No two sends for one CID have succeeded. -/
  sent_once : c.world.history.Pairwise fun call call' ↦
    ∀ p q, Delivers config p call → Delivers config q call' → p.cid ≠ q.cid
  /-- No send is in flight for a CID that has been sent. -/
  never_again : ∀ i p q, Sending config p (c.process i) → c.world.Delivered config q →
    p.cid ≠ q.cid
  /-- While no call is in flight, the set holds the CIDs that have been sent. -/
  mem_broadcasted : (∀ i, ¬ InFlight (c.process i)) →
    ∀ cid, cid ∈ c.world.broadcasted ↔ ∃ p, p.cid = cid ∧ c.world.Delivered config p

/-- **At most one successful broadcast for each CID, and an accurate set**, at every moment of every
run. -/
theorem exact_of_run (hrun : IsRun Broadcasts.Moves run actor)
    (hbegins : Begins config payload (run 0)) (n : ℕ) : Exact config (run n) := by
  have hinv := inv_of_run (isRun_abstraction hrun hbegins) hbegins.initial n
  have hstage := stage_of_run hrun hbegins n
  refine ⟨fun i j p q hp hq hcid ↦ ?_, nodup_deliveredCids.1 hinv.nodup, fun i p q hp hq hcid ↦ ?_,
    fun hquiet cid ↦ ?_⟩
  · obtain rfl := (hstage i).eq_of_sending hp
    obtain rfl := (hstage j).eq_of_sending hq
    exact hinv.eq_of_inFlight (.inl hp.phaseOf_eq) (.inl hq.phaseOf_eq) hcid
  · obtain rfl := (hstage i).eq_of_sending hp
    exact hinv.notMem_done (.inl hp.phaseOf_eq) (mem_deliveredCids.2 ⟨q, hcid.symm, hq⟩)
  · rw [← mem_deliveredCids, ← Finset.mem_coe]
    exact hinv.mem_entered_of_quiet hquiet

theorem exact_overlappingRun : Exact testConfig (overlappingRun 4) :=
  exact_of_run isRun_overlappingRun begins_overlappingRun 4

/-! ### What is reported -/

variable (config payload) in
/-- Whenever a call has returned `Ok`, an envelope with its CID has been sent. -/
def Reported (c : Broadcasts ι) : Prop :=
  ∀ i, c.process i = .pure () → ∃ p, p.cid = (payload i).cid ∧ c.world.Delivered config p

omit [DecidableEq ι] in
theorem reported_iff_reliable {c : Broadcasts ι} :
    Reported config payload c ↔ Reliable (fun i ↦ (payload i).cid) (abstraction config c) :=
  forall_congr' fun i ↦ imp_congr (phaseOf_eq_succeeded (p := c.process i)).symm
    mem_deliveredCids.symm

/-- **When `Ok` can be relied on**: in a run, every call that has returned `Ok` at any time is
backed by a send that has succeeded, if and only if no call checks the set while another with its
CID is in flight. -/
theorem reported_iff (hrun : IsRun Broadcasts.Moves run actor)
    (hbegins : Begins config payload (run 0)) :
    (∀ n, Reported config payload (run n)) ↔
      ∀ n i, actor n = some i → (run n).process i = broadcast config (payload i) →
        ∀ j, (payload j).cid = (payload i).cid → ¬ InFlight ((run n).process j) := by
  have hreliable := reliable_iff (isRun_abstraction hrun hbegins) hbegins.initial
  simp only [reported_iff_reliable]
  rw [hreliable]
  refine forall_congr' fun n ↦ forall_congr' fun i ↦ imp_congr_right fun _ ↦ ⟨?_, ?_⟩
  · intro hoverlaps hi j hcid hj
    exact hoverlaps ⟨congrArg phaseOf hi, j, hj, hcid⟩
  · rintro hcheck ⟨hi, j, hj, hcid⟩
    exact hcheck ((stage_of_run hrun hbegins n i).eq_broadcast hi) j hcid hj

/-- **`Ok` without a send**: the second call finds the CID of the first, whose send then fails. -/
theorem not_reported_overlappingRun :
    IsRun Broadcasts.Moves overlappingRun overlappingActor ∧
      Begins testConfig (fun _ ↦ freshPayload) (overlappingRun 0) ∧
      ¬ ∀ n, Reported testConfig (fun _ ↦ freshPayload) (overlappingRun n) := by
  refine ⟨isRun_overlappingRun, begins_overlappingRun, fun hreported ↦ ?_⟩
  obtain ⟨hok, hhistory⟩ := overlappingRun_end
  obtain ⟨p, -, call, hcall, -, hsucceeded⟩ := hreported 4 true hok
  rw [hhistory, List.mem_singleton] at hcall
  rw [hcall] at hsucceeded
  exact absurd hsucceeded (by simp [succeeded])

theorem reported_iff_overlappingRun :
    (∀ n, Reported testConfig (fun _ ↦ freshPayload) (overlappingRun n)) ↔
      ∀ n i, overlappingActor n = some i →
        (overlappingRun n).process i = broadcast testConfig freshPayload →
          ∀ j : Bool, freshPayload.cid = freshPayload.cid →
            ¬ InFlight ((overlappingRun n).process j) :=
  reported_iff isRun_overlappingRun begins_overlappingRun

end Whistleblower.Indexer
