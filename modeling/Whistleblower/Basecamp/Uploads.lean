import Mathlib.Data.List.Nodup
import Mathlib.Data.List.Perm.Basic
import Whistleblower.Basecamp.Module

/-!
# Uploads from start to end

Pages may call `uploadFile` at any time, and replies finish in any order. The uploads of a run are
numbered in the order in which they are asked for, and `Books` follows each of them: an upload is
the one its reply has been posted for, whatever else goes on. What holds of every run of the module,
from its construction on:

* every upload is reported by `uploadFinished` exactly once, or exactly one reply to it is
  outstanding (`numbers`);
* a success is reported for each envelope that the delivery has taken, and for nothing else, with
  the CID that the storage has answered to that upload and that is not empty (`successes`,
  `backed`);
* `uploading` is never set when nothing is in flight (`busy`).

That `uploading` is set whenever something is in flight is not among them: of two uploads at a time,
the first to end resets it. It is the page that keeps to one at a time, by asking `uploading`
itself (`OneAtATime`).
-/

namespace Whistleblower.Basecamp

open Json

variable {m m' : WhistleblowerModule} {e : Event} {es : List Event} {out out' : List Output}

/-! ### The books -/

/-- What is asked for by `uploadFile`. -/
structure Upload where
  localFile : String
  form : Form
  contents : Option (List UInt8)

/-- What the storage answers, and what is read then. -/
structure Answer where
  answer : Except String (Option Value)
  size : ℤ
  now : ℤ

/-- What `uploadFinished` says. -/
structure Report where
  cid : String
  success : Bool
  error : String

def Event.upload? : Event → Option Upload
  | .uploadFile localFile form contents => some ⟨localFile, form, contents⟩
  | _ => none

def Event.answer? : Event → Option Answer
  | .storageFinished _ answer size now => some ⟨answer, size, now⟩
  | _ => none

/-- The reply that finishes. -/
def Event.reply? : Event → Option ℕ
  | .storageFinished i _ _ _ => some i
  | .deliveryFinished i _ => some i
  | _ => none

/-- The delivery has taken an envelope. -/
def Event.delivers : Event → Bool
  | .deliveryFinished _ (.ok ()) => true
  | _ => false

def Output.report? : Output → Option Report
  | .emit (.uploadFinished cid success error) => some ⟨cid, success, error⟩
  | _ => none

/-- The books on a run: the uploads in the order of their numbers, what the storage has answered to
which of them, what has been reported of which, and to which of them the replies belong that are
outstanding. -/
structure Books where
  uploads : List Upload
  answers : List (ℕ × Answer)
  reports : List (ℕ × Report)
  waiting : List ℕ

def Books.new : Books := ⟨[], [], [], []⟩

/-- The number of the upload that an event is about: that of the reply that finishes, or the
next. -/
def Books.about (b : Books) (e : Event) : Option ℕ :=
  match e.reply? with
  | some i => b.waiting[i]?
  | none => e.upload?.map fun _ ↦ b.uploads.length

/-- The books after a reaction. Where there is a reply more, it belongs to the upload that the event
is about; where there is one less, it is the one that has finished. -/
def Books.enter (b : Books) (m : WhistleblowerModule) (e : Event) (m' : WhistleblowerModule)
    (out : List Output) : Books where
  uploads := b.uploads ++ e.upload?.toList
  answers := b.answers ++ (b.about e).toList.flatMap fun u ↦ e.answer?.toList.map (u, ·)
  reports := b.reports ++
    (b.about e).toList.flatMap fun u ↦ (out.filterMap Output.report?).map (u, ·)
  waiting :=
    if m.replies.length < m'.replies.length then b.waiting ++ (b.about e).toList
    else if m'.replies.length < m.replies.length then e.reply?.elim b.waiting b.waiting.eraseIdx
    else b.waiting

/-- The books on the run over these events. -/
def booksOf (es : List Event) : Books :=
  ((app.audited Books.enter).run (.new, .new) es).elim .new fun r ↦ r.1.2

theorem run_booksOf (h : app.run .new es = some (m, out)) :
    (app.audited Books.enter).run (.new, .new) es = some ((m, booksOf es), out) := by
  obtain ⟨b, hb⟩ : ∃ b, (app.audited Books.enter).run (.new, .new) es = some ((m, b), out) :=
    Reactor.exists_run_audited Books.new h
  rw [booksOf, hb]
  rfl

/-! ### What is entered -/

section Enter

variable {b : Books}

theorem enter_notOpened {localFile error : String} {form : Form} :
    b.enter m (.uploadFile localFile form none) m [.emit (.uploadFinished "" false error)] =
      { b with
        uploads := b.uploads ++ [⟨localFile, form, none⟩]
        reports := b.reports ++ [(b.uploads.length, ⟨"", false, error⟩)] } := by
  simp [Books.enter, Books.about, Event.upload?, Event.answer?, Event.reply?, Output.report?]

theorem enter_uploads {localFile : String} {form : Form} {contents : List UInt8} {reply : Reply}
    (hreplies : m'.replies = m.replies ++ [reply]) (hout : out.filterMap Output.report? = []) :
    b.enter m (.uploadFile localFile form (some contents)) m' out =
      { b with
        uploads := b.uploads ++ [⟨localFile, form, some contents⟩]
        waiting := b.waiting ++ [b.uploads.length] } := by
  simp [Books.enter, Books.about, Event.upload?, Event.answer?, Event.reply?, hreplies, hout]

/-- A reply finishes, and the end of its upload is reported. -/
theorem enter_closes {i u : ℕ} {report : Report} (hi : i < m.replies.length)
    (hu : b.waiting[i]? = some u) (he : e.reply? = some i)
    (hreplies : m'.replies = m.replies.eraseIdx i)
    (hout : out.filterMap Output.report? = [report]) :
    b.enter m e m' out =
      { b with
        answers := b.answers ++ e.answer?.toList.map (u, ·)
        reports := b.reports ++ [(u, report)]
        waiting := b.waiting.eraseIdx i } := by
  have hupload : e.upload? = none := by
    cases e with
    | uploadFile localFile form contents => cases he
    | storageFinished i answer size now => rfl
    | deliveryFinished i answer => rfl
    | runBatchAnchor => rfl
  have hlength : (m.replies.eraseIdx i).length < m.replies.length := by
    rw [List.length_eraseIdx_of_lt hi]
    omega
  simp [Books.enter, Books.about, he, hu, hupload, hreplies, hout, hlength, hlength.not_gt]

/-- The storage has answered, and the next reply of the same upload takes the place of its first. -/
theorem enter_publishes {i u : ℕ} {reply : Reply} {answer : Except String (Option Value)}
    {size now : ℤ} (hu : b.waiting[i]? = some u) (hreplies : m'.replies = m.replies.set i reply)
    (hout : out.filterMap Output.report? = []) :
    b.enter m (.storageFinished i answer size now) m' out =
      { b with answers := b.answers ++ [(u, ⟨answer, size, now⟩)] } := by
  simp [Books.enter, Books.about, Event.upload?, Event.answer?, Event.reply?, hu, hreplies, hout]

theorem enter_anchors {status : String} :
    b.enter m .runBatchAnchor { m with status := status } out = b := by
  simp [Books.enter, Books.about, Event.upload?, Event.answer?, Event.reply?]

end Enter

/-! ### What is true of the books -/

/-- The success of an upload is reported. -/
def Output.reportsSuccess : Output → Bool
  | .emit (.uploadFinished _ success _) => success
  | _ => false

/-- An envelope has been posted for upload `u`: it says what has been asked for there, under the CID
that the storage has answered to this upload. -/
structure Posted (b : Books) (out : List Output) (u : ℕ) (body : Value) (cid : String)
    (anchor : Bool) : Prop where
  cid_ne : cid ≠ ""
  post_mem : .post (publishRequest body) ∈ out
  origin : ∃ localFile form contents answer size now,
    b.uploads[u]? = some ⟨localFile, form, some contents⟩ ∧
    (u, Answer.mk (.ok answer) size now) ∈ b.answers ∧ cidOfBody answer = cid ∧
    body = envelope cid form size now ∧ form.anchorOnChain = anchor

/-- Why a reply to upload `u` is outstanding: its file has been posted and the storage has not
answered, or its envelope has. -/
def Justified (b : Books) (out : List Output) (u : ℕ) : Reply → Prop
  | .storage form => (∃ localFile contents, b.uploads[u]? = some ⟨localFile, form, some contents⟩) ∧
      u ∉ b.answers.map Prod.fst
  | .delivery body cid anchor => Posted b out u body cid anchor

/-- The books are complete, and they balance. -/
structure Balanced (es : List Event) (m : WhistleblowerModule) (b : Books) (out : List Output) :
    Prop where
  uploads : b.uploads = es.filterMap Event.upload?
  answers : b.answers.map Prod.snd = es.filterMap Event.answer?
  reports : b.reports.map Prod.snd = out.filterMap Output.report?
  length : b.waiting.length = m.replies.length
  /-- Every number is there once, as that of an upload reported or of one outstanding. -/
  numbers : (b.reports.map Prod.fst ++ b.waiting).Perm (List.range b.uploads.length)
  successes : out.countP Output.reportsSuccess = es.countP Event.delivers
  busy : m.uploading = true → m.replies ≠ []

/-- Where everything comes from that is outstanding, has been posted, or has been reported as a
success. -/
structure Traced (m : WhistleblowerModule) (b : Books) (out : List Output) : Prop where
  answered : (b.answers.map Prod.fst).Nodup
  known : ∀ u ∈ b.answers.map Prod.fst, u < b.uploads.length
  replies : ∀ (i u : ℕ) (reply : Reply), b.waiting[i]? = some u → m.replies[i]? = some reply →
    Justified b out u reply
  posted : ∀ body, .post (publishRequest body) ∈ out →
    ∃ u cid anchor, Posted b out u body cid anchor
  backed : ∀ u cid error, (u, Report.mk cid true error) ∈ b.reports →
    error = "" ∧ ∃ body anchor, Posted b out u body cid anchor

theorem balanced_new : Balanced [] .new .new [] where
  uploads := rfl
  answers := rfl
  reports := rfl
  length := rfl
  numbers := List.Perm.refl _
  successes := rfl
  busy h := by cases h

theorem traced_new : Traced .new .new [] where
  answered := List.nodup_nil
  known _ h := absurd h List.not_mem_nil
  replies i _ _ h := by cases h
  posted _ h := absurd h List.not_mem_nil
  backed _ _ _ h := absurd h List.not_mem_nil

variable {b b' : Books}

theorem Balanced.nodup_waiting (h : Balanced es m b out) : b.waiting.Nodup :=
  (List.nodup_append.1 (h.numbers.nodup_iff.2 List.nodup_range)).2.1

theorem Balanced.lt_of_waiting (h : Balanced es m b out) {i u : ℕ} (hu : b.waiting[i]? = some u) :
    u < b.uploads.length :=
  List.mem_range.1 (h.numbers.mem_iff.1 (List.mem_append_right _ (List.mem_of_getElem? hu)))

/-- A reply that is outstanding belongs to an upload. -/
theorem Balanced.exists_waiting (h : Balanced es m b out) {i : ℕ} {reply : Reply}
    (hreply : m.replies[i]? = some reply) : ∃ u, b.waiting[i]? = some u := by
  obtain ⟨hi, -⟩ := List.getElem?_eq_some_iff.1 hreply
  exact ⟨_, List.getElem?_eq_getElem (h.length ▸ hi)⟩

/-- A number is moved from the ones outstanding to the ones reported. -/
theorem perm_closes {reported waiting : List ℕ} {i u : ℕ} (hu : waiting[i]? = some u) :
    (reported ++ [u] ++ waiting.eraseIdx i).Perm (reported ++ waiting) := by
  obtain ⟨hi, rfl⟩ := List.getElem?_eq_some_iff.1 hu
  rw [List.append_assoc]
  exact (List.getElem_cons_eraseIdx_perm hi).append_left reported

/-! ### One step -/

/-- A reply that has been taken out is one less. -/
theorem length_eraseIdx_add_one {i : ℕ} {reply : Reply} (h : m.replies[i]? = some reply) :
    (m.replies.eraseIdx i).length + 1 = m.replies.length := by
  obtain ⟨hi, -⟩ := List.getElem?_eq_some_iff.1 h
  rw [List.length_eraseIdx_of_lt hi]
  omega

/-- An upload that fails was waiting for a reply. -/
theorem Ends.exists_reply {i : ℕ} {cid status error : String} (h : Ends m e i cid status error) :
    (∃ reply, m.replies[i]? = some reply) ∧ e.reply? = some i ∧ e.upload? = none ∧
      e.delivers = false := by
  cases h with
  | upload hreply => exact ⟨⟨_, hreply⟩, rfl, rfl, rfl⟩
  | noCid hreply _ => exact ⟨⟨_, hreply⟩, rfl, rfl, rfl⟩
  | broadcast hreply => exact ⟨⟨_, hreply⟩, rfl, rfl, rfl⟩

/-- The books stay in balance where the number of an upload is moved to the ones reported. -/
theorem Balanced.closes (h : Balanced es m b out) {i u : ℕ} {reply : Reply} (report : Report)
    (hreply : m.replies[i]? = some reply) (hu : b.waiting[i]? = some u) (he : e.reply? = some i)
    (hupload : e.upload? = none) (hreplies : m'.replies = m.replies.eraseIdx i)
    (hidle : m'.uploading = false) (hout : out'.filterMap Output.report? = [report])
    (hsuccess : out'.countP Output.reportsSuccess = [e].countP Event.delivers) :
    Balanced (es ++ [e]) m' (b.enter m e m' out') (out ++ out') := by
  obtain ⟨hi, -⟩ := List.getElem?_eq_some_iff.1 hreply
  rw [enter_closes hi hu he hreplies hout]
  refine ⟨?_, ?_, ?_, ?_, ?_, ?_, ?_⟩
  · rw [List.filterMap_append, ← h.uploads, List.filterMap_cons_none hupload, List.filterMap_nil,
      List.append_nil]
  · rw [List.filterMap_append, ← h.answers, List.map_append, List.map_map]
    cases hanswer : e.answer? with
    | none => rw [List.filterMap_cons_none hanswer]; rfl
    | some answer => rw [List.filterMap_cons_some hanswer]; rfl
  · rw [List.filterMap_append, ← h.reports, hout, List.map_append]
    rfl
  · show (b.waiting.eraseIdx i).length = m'.replies.length
    rw [hreplies, List.length_eraseIdx_of_lt hi, List.length_eraseIdx_of_lt (h.length ▸ hi),
      h.length]
  · show ((b.reports ++ [(u, report)]).map Prod.fst ++ b.waiting.eraseIdx i).Perm _
    rw [List.map_append]
    exact (perm_closes hu).trans h.numbers
  · rw [List.countP_append, List.countP_append, h.successes, hsuccess]
  · intro hbusy
    rw [hidle] at hbusy
    cases hbusy

/-- **The books are kept** by every reaction. -/
theorem Balanced.step (h : Balanced es m b out) (hreact : Reacts m e m' out') :
    Balanced (es ++ [e]) m' (b.enter m e m' out') (out ++ out') := by
  cases hreact with
  | notOpened =>
    rw [enter_notOpened]
    refine ⟨?_, ?_, ?_, h.length, ?_, ?_, h.busy⟩
    · rw [List.filterMap_append, ← h.uploads]
      rfl
    · rw [List.filterMap_append, ← h.answers]
      exact (List.append_nil _).symm
    · rw [List.filterMap_append, ← h.reports, List.map_append]
      rfl
    · show ((b.reports ++ [(b.uploads.length, _)]).map Prod.fst ++ b.waiting).Perm _
      rw [List.map_append, List.length_append, List.length_singleton, List.range_succ,
        List.append_assoc]
      refine (List.perm_append_comm.append_left _).trans ?_
      rw [← List.append_assoc]
      exact h.numbers.append_right _
    · rw [List.countP_append, List.countP_append, h.successes]
      rfl
  | @uploads localFile form contents =>
    rw [enter_uploads rfl rfl]
    refine ⟨?_, ?_, ?_, ?_, ?_, ?_, ?_⟩
    · rw [List.filterMap_append, ← h.uploads]
      rfl
    · rw [List.filterMap_append, ← h.answers]
      exact (List.append_nil _).symm
    · rw [List.filterMap_append, ← h.reports]
      exact (List.append_nil _).symm
    · show (b.waiting ++ [_]).length = (m.replies ++ [_]).length
      rw [List.length_append, List.length_append, h.length]
      rfl
    · show (b.reports.map Prod.fst ++ (b.waiting ++ [_])).Perm _
      rw [List.length_append, List.length_singleton, List.range_succ, ← List.append_assoc]
      exact h.numbers.append_right _
    · rw [List.countP_append, List.countP_append, h.successes]
      rfl
    · exact fun _ ↦ List.append_ne_nil_of_right_ne_nil _ (List.cons_ne_nil _ _)
  | @fails e i cid status error hends =>
    obtain ⟨⟨reply, hreply⟩, he, hupload, hdelivers⟩ := hends.exists_reply
    obtain ⟨u, hu⟩ := h.exists_waiting hreply
    refine h.closes ⟨cid, false, error⟩ hreply hu he hupload rfl rfl rfl ?_
    rw [List.countP_singleton, hdelivers]
    rfl
  | @publishes i form body size now hreply hcid =>
    obtain ⟨u, hu⟩ := h.exists_waiting hreply
    rw [enter_publishes hu rfl rfl]
    refine ⟨?_, ?_, ?_, ?_, h.numbers, ?_, ?_⟩
    · rw [List.filterMap_append, ← h.uploads]
      exact (List.append_nil _).symm
    · rw [List.filterMap_append, ← h.answers, List.map_append]
      rfl
    · rw [List.filterMap_append, ← h.reports]
      exact (List.append_nil _).symm
    · exact h.length.trans (List.length_set ..).symm
    · rw [List.countP_append, List.countP_append, h.successes]
      rfl
    · intro hbusy heq
      exact h.busy hbusy ((List.set_eq_nil_iff _ _).1 heq)
  | @finishes i body cid anchor hreply =>
    obtain ⟨u, hu⟩ := h.exists_waiting hreply
    refine h.closes ⟨cid, true, ""⟩ hreply hu rfl rfl rfl rfl ?_ ?_
    · cases anchor with
      | false => rfl
      | true => rfl
    · cases anchor with
      | false => rfl
      | true => rfl
  | anchors =>
    rw [enter_anchors]
    refine ⟨?_, ?_, ?_, h.length, h.numbers, ?_, h.busy⟩
    · rw [List.filterMap_append, ← h.uploads]
      exact (List.append_nil _).symm
    · rw [List.filterMap_append, ← h.answers]
      exact (List.append_nil _).symm
    · rw [List.filterMap_append, ← h.reports]
      exact (List.append_nil _).symm
    · rw [List.countP_append, List.countP_append, h.successes]
      rfl

theorem getElem?_of_isPrefix {α : Type*} {l l' : List α} (h : l <+: l') {i : ℕ} {a : α}
    (hi : l[i]? = some a) : l'[i]? = some a := by
  obtain ⟨rest, rfl⟩ := h
  obtain ⟨hlt, -⟩ := List.getElem?_eq_some_iff.1 hi
  rwa [List.getElem?_append_left hlt]

theorem Posted.mono {u : ℕ} {body : Value} {cid : String} {anchor : Bool}
    (h : Posted b out u body cid anchor) (huploads : b.uploads <+: b'.uploads)
    (hanswers : b.answers ⊆ b'.answers) (out' : List Output) :
    Posted b' (out ++ out') u body cid anchor := by
  obtain ⟨localFile, form, contents, answer, size, now, hupload, hanswer, hrest⟩ := h.origin
  exact ⟨h.cid_ne, List.mem_append_left _ h.post_mem, localFile, form, contents, answer, size, now,
    getElem?_of_isPrefix huploads hupload, hanswers hanswer, hrest⟩

theorem Justified.mono {u : ℕ} {reply : Reply} (h : Justified b out u reply)
    (huploads : b.uploads <+: b'.uploads) (hanswers : b.answers ⊆ b'.answers)
    (hold : u ∈ b'.answers.map Prod.fst → u ∈ b.answers.map Prod.fst) (out' : List Output) :
    Justified b' (out ++ out') u reply := by
  cases reply with
  | storage form =>
    obtain ⟨⟨localFile, contents, hupload⟩, hnot⟩ := h
    exact ⟨⟨localFile, contents, getElem?_of_isPrefix huploads hupload⟩,
      fun hmem ↦ hnot (hold hmem)⟩
  | delivery body cid anchor => exact Posted.mono h huploads hanswers out'

/-- What is traced stays so, if what is new is. -/
theorem Traced.extend (h : Traced m b out) (huploads : b.uploads <+: b'.uploads)
    (hanswers : b.answers ⊆ b'.answers) (hanswered : (b'.answers.map Prod.fst).Nodup)
    (hknown : ∀ u ∈ b'.answers.map Prod.fst, u < b'.uploads.length)
    (hreplies : ∀ (i u : ℕ) (reply : Reply), b'.waiting[i]? = some u →
      m'.replies[i]? = some reply → Justified b' (out ++ out') u reply)
    (hposted : ∀ body, .post (publishRequest body) ∈ out' →
      ∃ u cid anchor, Posted b' (out ++ out') u body cid anchor)
    (hbacked : ∀ u cid error, (u, Report.mk cid true error) ∈ b'.reports →
      (u, Report.mk cid true error) ∈ b.reports ∨
        error = "" ∧ ∃ body anchor, Posted b out u body cid anchor) :
    Traced m' b' (out ++ out') := by
  refine ⟨hanswered, hknown, hreplies, fun body hbody ↦ ?_, fun u cid error hreport ↦ ?_⟩
  · rcases List.mem_append.1 hbody with hold | hnew
    · obtain ⟨u, cid, anchor, hbefore⟩ := h.posted body hold
      exact ⟨u, cid, anchor, hbefore.mono huploads hanswers out'⟩
    · exact hposted body hnew
  · have hbefore : error = "" ∧ ∃ body anchor, Posted b out u body cid anchor :=
      (hbacked u cid error hreport).elim (h.backed u cid error) id
    obtain ⟨herror, body, anchor, hposted⟩ := hbefore
    exact ⟨herror, body, anchor, hposted.mono huploads hanswers out'⟩

/-- The other replies are where they were, or one place before. -/
theorem exists_of_eraseIdx {waiting : List ℕ} {replies : List Reply} {i j u : ℕ} {reply : Reply}
    (hu : (waiting.eraseIdx i)[j]? = some u) (hreply : (replies.eraseIdx i)[j]? = some reply) :
    ∃ k, k ≠ i ∧ waiting[k]? = some u ∧ replies[k]? = some reply := by
  rcases Nat.lt_or_ge j i with hlt | hge
  · rw [List.getElem?_eraseIdx_of_lt hlt] at hu hreply
    exact ⟨j, hlt.ne, hu, hreply⟩
  · rw [List.getElem?_eraseIdx_of_ge hge] at hu hreply
    exact ⟨j + 1, by omega, hu, hreply⟩

theorem Balanced.ne_of_ne (h : Balanced es m b out) {i j u v : ℕ} (hu : b.waiting[i]? = some u)
    (hv : b.waiting[j]? = some v) (hne : j ≠ i) : v ≠ u := by
  rintro rfl
  obtain ⟨hi, rfl⟩ := List.getElem?_eq_some_iff.1 hu
  obtain ⟨hj, heq⟩ := List.getElem?_eq_some_iff.1 hv
  exact hne ((List.Nodup.getElem_inj_iff h.nodup_waiting).1 heq)

/-- What is traced stays so where the end of an upload is reported, and the storage may have
answered to it now for the first time. -/
theorem Traced.closes (h : Traced m b out) (hbalanced : Balanced es m b out) {i u : ℕ}
    {reply : Reply} (report : Report) (hreply : m.replies[i]? = some reply)
    (hu : b.waiting[i]? = some u) (he : e.reply? = some i)
    (hreplies : m'.replies = m.replies.eraseIdx i)
    (hout : out'.filterMap Output.report? = [report])
    (hfirst : e.answer? ≠ none → u ∉ b.answers.map Prod.fst)
    (hposted : ∀ body, .post (publishRequest body) ∉ out')
    (hbacked : report.success = true →
      report.error = "" ∧ ∃ body anchor, Posted b out u body report.cid anchor) :
    Traced m' (b.enter m e m' out') (out ++ out') := by
  obtain ⟨hi, -⟩ := List.getElem?_eq_some_iff.1 hreply
  rw [enter_closes hi hu he hreplies hout]
  have hnew : ∀ v ∈ (b.answers ++ e.answer?.toList.map (u, ·)).map Prod.fst,
      v ∈ b.answers.map Prod.fst ∨ v = u := by
    intro v hv
    rw [List.map_append] at hv
    refine (List.mem_append.1 hv).imp_right fun hlast ↦ ?_
    obtain ⟨p, hp, rfl⟩ := List.mem_map.1 hlast
    obtain ⟨answer, -, rfl⟩ := List.mem_map.1 hp
    rfl
  refine h.extend (List.prefix_refl _) (List.subset_append_left _ _) ?_ (fun v hv ↦ ?_)
    (fun j v reply' hv hreply' ↦ ?_) (fun body hbody ↦ absurd hbody (hposted body))
    fun v cid error hreport ↦ ?_
  · show ((b.answers ++ e.answer?.toList.map (u, ·)).map Prod.fst).Nodup
    cases hanswer : e.answer? with
    | none =>
      rw [Option.toList_none, List.map_nil, List.append_nil]
      exact h.answered
    | some answer =>
      have hnot : u ∉ b.answers.map Prod.fst :=
        hfirst (by rw [hanswer]; exact Option.some_ne_none answer)
      rw [List.map_append]
      exact List.concat_eq_append ▸ List.Nodup.concat hnot h.answered
  · rcases hnew v hv with hold | rfl
    · exact h.known v hold
    · exact hbalanced.lt_of_waiting hu
  · rw [hreplies] at hreply'
    obtain ⟨k, hne, hk, hk'⟩ := exists_of_eraseIdx hv hreply'
    refine (h.replies k v reply' hk hk').mono ?_ ?_ (fun hmem ↦ ?_) out'
    · exact List.prefix_refl _
    · exact List.subset_append_left _ _
    · exact (hnew v hmem).resolve_right (hbalanced.ne_of_ne hu hk hne)
  · refine (List.mem_append.1 hreport).imp_right fun hlast ↦ ?_
    obtain ⟨rfl, rfl⟩ := Prod.mk.inj (List.mem_singleton.1 hlast)
    exact hbacked rfl

/-- **Everything is traced** by every reaction. -/
theorem Traced.step (h : Traced m b out) (hbalanced : Balanced es m b out)
    (hreact : Reacts m e m' out') : Traced m' (b.enter m e m' out') (out ++ out') := by
  cases hreact with
  | notOpened =>
    rw [enter_notOpened]
    refine h.extend (List.prefix_append _ _) (List.Subset.refl _) h.answered (fun u hu ↦ ?_)
      (fun i u reply hu hreply ↦ ?_) (fun body hbody ↦ by simp at hbody)
      fun u cid error hreport ↦ ?_
    · exact (h.known u hu).trans_le (List.prefix_append _ _).length_le
    · refine (h.replies i u reply hu hreply).mono ?_ ?_ (fun hmem ↦ ?_) _
      · exact List.prefix_append _ _
      · exact List.Subset.refl _
      · exact hmem
    · refine Or.inl ((List.mem_append.1 hreport).resolve_right fun hlast ↦ ?_)
      simp at hlast
  | @uploads localFile form contents =>
    rw [enter_uploads rfl rfl]
    refine h.extend (List.prefix_append _ _) (List.Subset.refl _) h.answered (fun u hu ↦ ?_)
      (fun i u reply hu hreply ↦ ?_) (fun body hbody ↦ ?_) fun u cid error ↦ Or.inl
    · exact (h.known u hu).trans_le (List.prefix_append _ _).length_le
    · have hu : (b.waiting ++ [b.uploads.length])[i]? = some u := hu
      have hreply : (m.replies ++ [Reply.storage form])[i]? = some reply := hreply
      rcases Nat.lt_or_ge i m.replies.length with hlt | hge
      · rw [List.getElem?_append_left (hbalanced.length.symm ▸ hlt)] at hu
        rw [List.getElem?_append_left hlt] at hreply
        refine (h.replies i u reply hu hreply).mono ?_ ?_ (fun hmem ↦ ?_) _
        · exact List.prefix_append _ _
        · exact List.Subset.refl _
        · exact hmem
      · -- the new reply, of the upload with the next number
        have hge' : b.waiting.length ≤ i := hbalanced.length.trans_le hge
        rw [List.getElem?_append_right hge', List.getElem?_singleton] at hu
        rw [List.getElem?_append_right hge, List.getElem?_singleton] at hreply
        split at hu
        · split at hreply
          · obtain rfl := Option.some.inj hu
            obtain rfl := Option.some.inj hreply
            refine ⟨⟨localFile, contents, List.getElem?_concat_length⟩, fun hmem ↦ ?_⟩
            exact absurd (h.known _ hmem) (Nat.lt_irrefl _)
          · cases hreply
        · cases hu
    · simp [publishRequest, uploadRequest] at hbody
  | @fails e i cid status error hends =>
    obtain ⟨⟨reply, hreply⟩, he, -, -⟩ := hends.exists_reply
    obtain ⟨u, hu⟩ := hbalanced.exists_waiting hreply
    refine h.closes hbalanced ⟨cid, false, error⟩ hreply hu he rfl rfl (fun hanswer ↦ ?_)
      (fun body ↦ by simp) fun hsuccess ↦ by cases hsuccess
    cases hends with
    | upload hstorage => exact (h.replies i u _ hu hstorage).2
    | noCid hstorage _ => exact (h.replies i u _ hu hstorage).2
    | broadcast _ => exact absurd rfl hanswer
  | @publishes i form answer size now hreply hcid =>
    obtain ⟨u, hu⟩ := hbalanced.exists_waiting hreply
    obtain ⟨⟨localFile, contents, hupload⟩, hnot⟩ := h.replies i u _ hu hreply
    rw [enter_publishes hu rfl rfl]
    have hposted : Posted { b with answers := b.answers ++ [(u, ⟨.ok answer, size, now⟩)] }
        (out ++ [.emit .lastCidChanged, .emit .statusChanged,
          .post (publishRequest (envelope (cidOfBody answer) form size now))])
        u (envelope (cidOfBody answer) form size now) (cidOfBody answer) form.anchorOnChain :=
      ⟨hcid, List.mem_append_right _ (by simp), localFile, form, contents, answer, size, now,
        hupload, List.mem_append_right _ (List.mem_singleton_self _), rfl, rfl, rfl⟩
    have hnew : ∀ v ∈ (b.answers ++ [(u, Answer.mk (.ok answer) size now)]).map Prod.fst,
        v ∈ b.answers.map Prod.fst ∨ v = u := by
      intro v hv
      rw [List.map_append] at hv
      exact (List.mem_append.1 hv).imp_right List.mem_singleton.1
    refine h.extend (List.prefix_refl _) (List.subset_append_left _ _) ?_ (fun v hv ↦ ?_)
      (fun j v reply hv hreply' ↦ ?_) (fun body hbody ↦ ?_) fun v cid error ↦ Or.inl
    · show ((b.answers ++ [(u, _)]).map Prod.fst).Nodup
      rw [List.map_append]
      exact List.concat_eq_append ▸ List.Nodup.concat hnot h.answered
    · rcases hnew v hv with hold | rfl
      · exact h.known v hold
      · exact hbalanced.lt_of_waiting hu
    · have hreply' : (m.replies.set i (.delivery _ _ _))[j]? = some reply := hreply'
      rcases eq_or_ne i j with rfl | hne
      · obtain ⟨hi, -⟩ := List.getElem?_eq_some_iff.1 hreply
        rw [List.getElem?_set_self hi] at hreply'
        obtain rfl := Option.some.inj hreply'
        obtain rfl := Option.some.inj (hu.symm.trans hv)
        exact hposted
      · rw [List.getElem?_set_ne hne] at hreply'
        refine (h.replies j v reply hv hreply').mono ?_ ?_ (fun hmem ↦ ?_) _
        · exact List.prefix_refl _
        · exact List.subset_append_left _ _
        · exact (hnew v hmem).resolve_right (hbalanced.ne_of_ne hu hv hne.symm)
    · have hsame : body = envelope (cidOfBody answer) form size now := by
        simpa [publishRequest] using hbody
      subst hsame
      exact ⟨_, _, _, hposted⟩
  | @finishes i body cid anchor hreply =>
    obtain ⟨u, hu⟩ := hbalanced.exists_waiting hreply
    refine h.closes hbalanced ⟨cid, true, ""⟩ hreply hu rfl rfl ?_
      (fun hanswer ↦ absurd rfl hanswer) (fun body ↦ ?_)
      fun _ ↦ ⟨rfl, body, anchor, h.replies i u _ hu hreply⟩
    · cases anchor with
      | false => rfl
      | true => rfl
    · cases anchor with
      | false => simp
      | true => simp
  | anchors =>
    rw [enter_anchors]
    exact h.extend (List.prefix_refl _) (List.Subset.refl _) h.answered h.known
      (fun i u reply hu hreply ↦ (h.replies i u reply hu hreply).mono (List.prefix_refl _)
        (List.Subset.refl _) id _) (fun body hbody ↦ by simp at hbody) fun u cid error ↦ Or.inl

/-! ### One at a time -/

/-- The page keeps to one upload at a time. -/
structure OneAtATime (m : WhistleblowerModule) : Prop where
  length : m.replies.length = if m.uploading then 1 else 0
  lastCid : ∀ body cid anchor, .delivery body cid anchor ∈ m.replies → m.lastCid = cid

theorem oneAtATime_new : OneAtATime .new where
  length := rfl
  lastCid _ _ _ h := absurd h List.not_mem_nil

/-- The page reacts as the module does, where it reacts. -/
theorem step_of_page (h : page.step m e = some (m', out)) : m.react e = some (m', out) := by
  cases e with
  | uploadFile localFile form contents =>
    have hguarded : (if m.uploading then none else m.react (.uploadFile localFile form contents)) =
        some (m', out) := h
    split at hguarded
    · cases hguarded
    · exact hguarded
  | storageFinished i answer size now => exact h
  | deliveryFinished i answer => exact h
  | runBatchAnchor => exact h

/-- It does not react to a call of `uploadFile` while `uploading` is set. -/
theorem uploading_of_page {localFile : String} {form : Form} {contents : Option (List UInt8)}
    (h : page.step m (.uploadFile localFile form contents) = some (m', out)) :
    m.uploading = false := by
  have hguarded : (if m.uploading then none else m.react (.uploadFile localFile form contents)) =
      some (m', out) := h
  split at hguarded
  · cases hguarded
  · next hnot => exact Bool.not_eq_true _ ▸ hnot

/-- Where one reply is outstanding, none is left when it has been taken out. -/
theorem OneAtATime.eraseIdx {i : ℕ} {reply : Reply} (h : OneAtATime m)
    (hreply : m.replies[i]? = some reply) : m.replies.eraseIdx i = [] := by
  have hlength := length_eraseIdx_add_one hreply
  rw [h.length] at hlength
  refine List.eq_nil_of_length_eq_zero ?_
  split at hlength
  · omega
  · omega

theorem OneAtATime.step (h : OneAtATime m) (hstep : page.step m e = some (m', out)) :
    OneAtATime m' := by
  have hreact := reacts_of_react (step_of_page hstep)
  cases hreact with
  | notOpened => exact h
  | uploads =>
    have hidle := uploading_of_page hstep
    have hlength := h.length
    rw [hidle] at hlength
    have hnone : m.replies = [] := List.eq_nil_of_length_eq_zero hlength
    refine ⟨?_, fun body cid anchor hmem ↦ ?_⟩
    · show (m.replies ++ [_]).length = 1
      rw [hnone]
      rfl
    · have hmem : Reply.delivery body cid anchor ∈ m.replies ++ [.storage _] := hmem
      rw [hnone] at hmem
      simp at hmem
  | fails hends =>
    obtain ⟨⟨reply, hreply⟩, -⟩ := hends.exists_reply
    have hnone := h.eraseIdx hreply
    refine ⟨congrArg List.length hnone, fun body cid anchor hmem ↦ ?_⟩
    have hmem : Reply.delivery body cid anchor ∈ m.replies.eraseIdx _ := hmem
    rw [hnone] at hmem
    exact absurd hmem List.not_mem_nil
  | @publishes i form answer size now hreply hcid =>
    refine ⟨(List.length_set ..).trans h.length, fun body cid anchor hmem ↦ ?_⟩
    -- the one reply is the one that has just been replaced
    have hone : m.replies = [.storage form] := by
      have hlength := h.length
      obtain ⟨hi, hget⟩ := List.getElem?_eq_some_iff.1 hreply
      have hle : m.replies.length ≤ 1 := by
        rw [hlength]
        split
        · exact le_refl 1
        · exact Nat.zero_le 1
      obtain ⟨reply, hreplies⟩ := List.length_eq_one_iff.1 (by omega : m.replies.length = 1)
      have hzero : i = 0 := by omega
      subst hzero
      rw [hreplies, List.getElem?_cons_zero] at hreply
      rw [hreplies, Option.some.inj hreply]
    have hmem : Reply.delivery body cid anchor ∈ m.replies.set i (.delivery _ _ _) := hmem
    have hnew := (List.mem_or_eq_of_mem_set hmem).resolve_left fun hold ↦ by
      rw [hone] at hold
      simp at hold
    exact (Reply.delivery.inj hnew).2.1.symm
  | finishes hreply =>
    have hnone := h.eraseIdx hreply
    refine ⟨congrArg List.length hnone, fun body cid anchor hmem ↦ ?_⟩
    have hmem : Reply.delivery body cid anchor ∈ m.replies.eraseIdx _ := hmem
    rw [hnone] at hmem
    exact absurd hmem List.not_mem_nil
  | anchors => exact ⟨h.length, h.lastCid⟩

/-! ### Runs -/

/-- The books of a run are kept, and what they say can be traced. -/
theorem balanced_of_run (h : app.run .new es = some (m, out)) :
    Balanced es m (booksOf es) out ∧ Traced m (booksOf es) out := by
  have hinv : Balanced ([] ++ es) m (booksOf es) ([] ++ out) ∧
      Traced m (booksOf es) ([] ++ out) := by
    refine Reactor.invariant (I := fun es p out ↦ Balanced es p.1 p.2 out ∧ Traced p.1 p.2 out)
      (fun hinv hstep ↦ ?_) ⟨balanced_new, traced_new⟩ (run_booksOf h)
    obtain ⟨hstep, hbooks⟩ := Reactor.audited_step_eq_some.1 hstep
    rw [hbooks]
    exact ⟨hinv.1.step (reacts_of_react hstep), hinv.2.step hinv.1 (reacts_of_react hstep)⟩
  exact hinv

/-- **Every upload is accounted for.** Along every run of the module, whoever calls it and in
whatever order the replies finish, the books on the run list the uploads that have been asked for,
the answers of the storage, at most one to an upload, and the reports that have been given, and
there is an upload for every reply that is outstanding. Each upload is reported once, or one reply
to it is outstanding, and not both: every number is there once. Successes are as many as the
envelopes the delivery has taken, and each is of an upload whose envelope has been posted with the
CID that the storage has answered to it. And where it is the page that calls, one reply is
outstanding while `uploading` is set, and none otherwise, and an envelope that has not been answered
yet is that of `lastCid`. -/
theorem uploads_accounted (h : app.run .new es = some (m, out)) :
    ((booksOf es).uploads = es.filterMap Event.upload? ∧
      (booksOf es).answers.map Prod.snd = es.filterMap Event.answer? ∧
      ((booksOf es).answers.map Prod.fst).Nodup ∧
      (booksOf es).reports.map Prod.snd = out.filterMap Output.report? ∧
      (booksOf es).waiting.length = m.replies.length) ∧
    ((booksOf es).reports.map Prod.fst ++ (booksOf es).waiting).Perm
      (List.range (booksOf es).uploads.length) ∧
    out.countP Output.reportsSuccess = es.countP Event.delivers ∧
    (∀ u cid error, (u, Report.mk cid true error) ∈ (booksOf es).reports →
      error = "" ∧ ∃ body anchor, Posted (booksOf es) out u body cid anchor) ∧
    (m.uploading = true → m.replies ≠ []) ∧
    (page.run .new es = some (m, out) → OneAtATime m) := by
  obtain ⟨hbalanced, htraced⟩ := balanced_of_run h
  exact ⟨⟨hbalanced.uploads, hbalanced.answers, htraced.answered, hbalanced.reports,
    hbalanced.length⟩, hbalanced.numbers, hbalanced.successes, htraced.backed, hbalanced.busy,
    Reactor.keeps OneAtATime.step oneAtATime_new⟩

/-- A document is uploaded, and its envelope is broadcast. -/
def sampleEvents : List Event :=
  [.uploadFile "/home/a/leak.pdf" ⟨"title", "", ["tag"], true⟩ (some []),
    .storageFinished 0 (.ok (some (.object [("cid", .string "zQm")]))) 0 1700000000,
    .deliveryFinished 0 (.ok ())]

theorem exists_run_sampleEvents : ∃ m out, app.run .new sampleEvents = some (m, out) ∧
    page.run .new sampleEvents = some (m, out) :=
  ⟨_, _, rfl, rfl⟩

/-- Two documents are uploaded, and the second one is broadcast while the storage has not answered
to the first. -/
def overlappingEvents : List Event :=
  [.uploadFile "/home/a/first.pdf" ⟨"first", "", [], false⟩ (some []),
    .uploadFile "/home/a/second.pdf" ⟨"second", "", [], false⟩ (some []),
    .storageFinished 1 (.ok (some (.object [("cid", .string "zQm")]))) 0 1700000000,
    .deliveryFinished 1 (.ok ())]

theorem exists_run_overlappingEvents : ∃ m out, app.run .new overlappingEvents = some (m, out) ∧
    (booksOf overlappingEvents).uploads.length = 2 ∧
    (booksOf overlappingEvents).waiting = [0] :=
  ⟨_, _, rfl, rfl, rfl⟩

/-- The second upload has been reported, once, and its success; the first is outstanding. -/
theorem uploads_accounted_overlappingEvents : ∃ m out,
    app.run .new overlappingEvents = some (m, out) ∧ out.countP Output.reportsSuccess = 1 ∧
    ((booksOf overlappingEvents).reports.map Prod.fst ++ [0]).Perm [0, 1] := by
  obtain ⟨m, out, hrun, htwo, hwaiting⟩ := exists_run_overlappingEvents
  obtain ⟨-, hnumbers, hsuccesses, -⟩ := uploads_accounted hrun
  rw [htwo, hwaiting] at hnumbers
  exact ⟨m, out, hrun, hsuccesses, hnumbers⟩

end Whistleblower.Basecamp
