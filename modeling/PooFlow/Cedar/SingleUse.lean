import PooFlow.Cedar.FailClosed
import Mathlib.Data.List.Induction

namespace PooFlow.Cedar

open Foundation List Option

variable {cedar : CedarPolicy}

inductive Call where
  | issue (proposal : Proposal) (surroundings : Surroundings)
  | consume (request : ConsumeRequest) (now : ℕ)
  | consumeProposal (grant : Signed Grant) (proposal : Proposal) (now : ℕ)
  | revoke (nextEpoch : ℕ)
  | close

inductive Reply where
  | issued (result : Except Error AuthorizationResult)
  | consumed (result : Except Error ConsumedHandoff)
  | revoked (result : Except Error Unit)
  | closed

structure Event (cedar : CedarPolicy) where
  before : Authority cedar
  call : Call
  reply : Reply
  after : Authority cedar

structure Record (cedar : CedarPolicy) where
  authority : Authority cedar
  log : List (Event cedar)

section

variable (crypto : Crypto) (fromSlice : List UInt8 → Except String RuntimeReply)

def answer (authority : Authority cedar) : Call → Authority cedar × Reply
  | .issue proposal surroundings =>
    (authority.issue crypto fromSlice proposal surroundings).map id .issued
  | .consume request now => (authority.consume crypto request now).map id .consumed
  | .consumeProposal grant proposal now =>
    (authority.consumeProposal crypto grant proposal now).map id .consumed
  | .revoke nextEpoch => (authority.revoke nextEpoch).map id .revoked
  | .close => (authority.close, .closed)

def Record.step (record : Record cedar) (call : Call) : Record cedar where
  authority := (answer crypto fromSlice record.authority call).1
  log := record.log ++ [⟨record.authority, call, (answer crypto fromSlice record.authority call).2,
    (answer crypto fromSlice record.authority call).1⟩]

end

namespace Event

def grants? (event : Event cedar) : Option (Signed Grant) :=
  match event.reply with
  | .issued (.ok result) => result.grant
  | _ => none

def spends? (event : Event cedar) : Option (Signed Grant) :=
  match event.call, event.reply with
  | .consume request _, .consumed (.ok _) => some request.grant
  | .consumeProposal grant _ _, .consumed (.ok _) => some grant
  | _, _ => none

def presentedAt? (event : Event cedar) : Option ℕ :=
  match event.call with
  | .consume _ now | .consumeProposal _ _ now => some now
  | _ => none

def effect? (event : Event cedar) : Option (String × String × HandoffInput) :=
  match event.call with
  | .consume request _ => some (request.action, request.intentDigest, request.handoff)
  | .consumeProposal _ proposal _ =>
    some (proposal.action, proposal.intentDigest, proposal.handoff)
  | _ => none

structure Quiet (event : Event cedar) : Prop where
  revoked : event.reply ≠ .revoked (.ok ())
  closed : event.call ≠ .close
  suspended : event.after.suspended = none

end Event

/-- **What a consumed grant goes back to**: an authorized call of `issue` that
returned it, with no revocation, closing, suspension or consumption in between,
before its deadline, and with the same effect; and for the request that was
evaluated. -/
structure Accounted (crypto : Crypto) (front : List (Event cedar)) (event : Event cedar)
    (grant : Signed Grant) (before between : List (Event cedar)) (issue : Event cedar)
    (proposal : Proposal) (surroundings : Surroundings) : Prop where
  split : front = before ++ issue :: between
  call : issue.call = .issue proposal surroundings
  reply : ∃ result, issue.reply = .issued (.ok result) ∧ result.status = "authorized" ∧
    result.grant = some grant
  quiet : ∀ other ∈ between, other.Quiet ∧
    ∀ spent, other.spends? = some spent → spent.payload.grantId ≠ grant.payload.grantId
  deadline : ∀ now, event.presentedAt? = some now →
    now < surroundings.now + issue.before.deployment.grantLifetimeMs
  effect : ∃ prepared, issue.before.snapshot.prepare crypto.sha256 proposal = .ok prepared ∧
    event.effect? = some (prepared.action, proposal.intentDigest, proposal.handoff)
  request : ∀ presented now, event.call = .consumeProposal grant presented now →
    ∃ rendered, event.before.snapshot.rendered crypto.sha256 presented = .ok rendered ∧
      issue.before.snapshot.rendered crypto.sha256 proposal = .ok rendered

variable {proposal : Proposal} {surroundings : Surroundings}

theorem Accounted.grants {crypto : Crypto} {front : List (Event cedar)} {event : Event cedar}
    {grant : Signed Grant} {before between : List (Event cedar)} {issue : Event cedar}
    (h : Accounted crypto front event grant before between issue proposal surroundings) :
    issue.grants? = some grant := by
  obtain ⟨result, hreply, -, hgrant⟩ := h.reply
  rw [Event.grants?, hreply]
  exact hgrant

structure Backed (crypto : Crypto) (record : Record cedar) (id : String) (entry : Pending)
    (grant : Signed Grant) (before between : List (Event cedar)) (issue : Event cedar)
    (proposal : Proposal) (surroundings : Surroundings) : Prop where
  split : record.log = before ++ issue :: between
  call : issue.call = .issue proposal surroundings
  reply : ∃ result, issue.reply = .issued (.ok result) ∧ result.status = "authorized" ∧
    result.grant = some grant
  granted : issue.before.Granted crypto proposal surroundings grant entry
  named : grant.payload.grantId = id
  quiet : ∀ other ∈ between, other.Quiet ∧
    ∀ spent, other.spends? = some spent → spent.payload.grantId ≠ id
  snapshot : record.authority.snapshot = issue.before.snapshot

structure AllBacked (crypto : Crypto) (record : Record cedar) : Prop where
  backed : ∀ id entry, record.authority.pending.find? id = some entry →
    ∃ grant before between issue proposal surroundings,
      Backed crypto record id entry grant before between issue proposal surroundings
  suspended : record.authority.suspended ≠ none → record.authority.pending = .empty

section

variable {crypto : Crypto} {fromSlice : List UInt8 → Except String RuntimeReply}
  {record : Record cedar}

variable {next : Record cedar} {event : Event cedar} {grant : Signed Grant}

theorem Backed.extend {id : String} {entry : Pending} {before between : List (Event cedar)}
    {issue : Event cedar}
    (h : Backed crypto record id entry grant before between issue proposal surroundings)
    (hlog : next.log = record.log ++ [event]) (hquiet : event.Quiet)
    (hspent : ∀ spent, event.spends? = some spent → spent.payload.grantId ≠ id)
    (hsnapshot : next.authority.snapshot = record.authority.snapshot) :
    Backed crypto next id entry grant before (between ++ [event]) issue proposal surroundings where
  split := by rw [hlog, h.split, append_assoc, cons_append]
  call := h.call
  reply := h.reply
  granted := h.granted
  named := h.named
  quiet := by
    intro other hother
    rcases mem_append.1 hother with hother | hother
    · exact h.quiet other hother
    · rw [mem_singleton.1 hother]
      exact ⟨hquiet, hspent⟩
  snapshot := hsnapshot.trans h.snapshot

/-- A call that leaves only entries that were pending. -/
theorem AllBacked.kept (h : AllBacked crypto record) (hlog : next.log = record.log ++ [event])
    (hquiet : next.authority.pending ≠ .empty → event.Quiet)
    (hsnapshot : next.authority.pending ≠ .empty →
      next.authority.snapshot = record.authority.snapshot)
    (hkept : ∀ id entry, next.authority.pending.find? id = some entry →
      record.authority.pending.find? id = some entry ∧
        ∀ spent, event.spends? = some spent → spent.payload.grantId ≠ id)
    (hsuspended : next.authority.suspended ≠ none → next.authority.pending = .empty) :
    AllBacked crypto next where
  backed := by
    intro id entry hfind
    have hsome : next.authority.pending ≠ .empty := by
      intro heq
      rw [heq] at hfind
      cases hfind
    obtain ⟨hold, hspent⟩ := hkept id entry hfind
    obtain ⟨grant, before, between, issue, proposal, surroundings, hbacked⟩ := h.backed id entry hold
    exact ⟨grant, before, between ++ [event], issue, proposal, surroundings,
      hbacked.extend hlog (hquiet hsome) hspent (hsnapshot hsome)⟩
  suspended := hsuspended

/-- What `consume` does to a state in which every pending entry is backed. -/
theorem backed_consume {request : ConsumeRequest} {now : ℕ} {reply : Except Error ConsumedHandoff}
    (h : AllBacked crypto record)
    (hconsume : record.authority.consume crypto request now = (next.authority, reply))
    (hlog : next.log = record.log ++ [event]) (hafter : event.after = next.authority)
    (hreply : event.reply = .consumed reply) (hcall : event.call ≠ .close)
    (hspends : ∀ spent, event.spends? = some spent → spent = request.grant ∧ ∃ handoff,
      reply = .ok handoff) : AllBacked crypto next := by
  have hforget : ∀ id entry, (record.authority.forget request.grant.payload.grantId).pending.find? id
      = some entry → record.authority.pending.find? id = some entry ∧
        request.grant.payload.grantId ≠ id := by
    intro id entry hfind
    simp only [Authority.forget, Keyed.find?_delete] at hfind
    split_ifs at hfind with hid
    exact ⟨hfind, fun heq => hid heq.symm⟩
  have hcases : (next.authority = record.authority ∧ ∀ spent, event.spends? ≠ some spent) ∨
      next.authority = record.authority.forget request.grant.payload.grantId := by
    obtain ⟨handoff, entry, rfl, -, -, -, heq⟩ | ⟨error, rfl, heq | heq⟩ :=
      Authority.consume_cases hconsume
    · exact .inr heq
    · refine .inl ⟨heq, fun spent hspent => ?_⟩
      obtain ⟨-, handoff, hok⟩ := hspends spent hspent
      cases hok
    · exact .inr heq
  have hsame : next.authority.suspended = record.authority.suspended ∧
      next.authority.snapshot = record.authority.snapshot := by
    rcases hcases with ⟨heq, -⟩ | heq <;> rw [heq] <;> exact ⟨rfl, rfl⟩
  have hkept : ∀ id entry, next.authority.pending.find? id = some entry →
      record.authority.pending.find? id = some entry ∧
        ∀ spent, event.spends? = some spent → spent.payload.grantId ≠ id := by
    intro id entry hfind
    rcases hcases with ⟨heq, hnone⟩ | heq
    · rw [heq] at hfind
      exact ⟨hfind, fun spent hspent => absurd hspent (hnone spent)⟩
    · rw [heq] at hfind
      obtain ⟨hold, hne⟩ := hforget id entry hfind
      exact ⟨hold, fun spent hspent => (hspends spent hspent).1 ▸ hne⟩
  have hsuspended : next.authority.suspended ≠ none → next.authority.pending = .empty := by
    intro hsome
    have hold := h.suspended (hsame.1 ▸ hsome)
    rcases hcases with ⟨heq, -⟩ | heq
    · rw [heq, hold]
    · rw [heq, Authority.forget, hold]
      rfl
  refine h.kept hlog (fun hsome => ⟨by rw [hreply]; simp, hcall, ?_⟩) (fun _ => hsame.2) hkept
    hsuspended
  rw [hafter]
  exact not_not.1 fun hne => hsome (hsuspended hne)

theorem Authority.revoke_cases {authority after : Authority cedar} {nextEpoch : ℕ}
    {reply : Except Error Unit} (hrevoke : authority.revoke nextEpoch = (after, reply)) :
    after.pending = .empty ∨ after = authority ∧ reply ≠ .ok () := by
  unfold Authority.revoke at hrevoke
  split at hrevoke
  · obtain ⟨rfl, rfl⟩ := Prod.mk.inj hrevoke
    exact .inr ⟨rfl, by simp⟩
  · split_ifs at hrevoke
    · obtain ⟨rfl, rfl⟩ := Prod.mk.inj hrevoke
      exact .inr ⟨rfl, by simp⟩
    · obtain ⟨rfl, rfl⟩ := Prod.mk.inj hrevoke
      exact .inl rfl

theorem backed_issue (h : AllBacked crypto record) (proposal : Proposal)
    (surroundings : Surroundings) :
    AllBacked crypto (record.step crypto fromSlice (.issue proposal surroundings)) := by
  rcases hissue : record.authority.issue crypto fromSlice proposal surroundings with ⟨after, reply⟩
  have hstep : record.step crypto fromSlice (.issue proposal surroundings) = ⟨after, record.log ++
      [⟨record.authority, .issue proposal surroundings, .issued reply, after⟩]⟩ := by
    simp [Record.step, answer, hissue]
  rw [hstep]
  obtain ⟨hsnapshot, ⟨result, grant, entry, rfl, hstatus, hgrant, -, hnone, hpending, hgranted⟩ |
    ⟨-, hempty | ⟨hsame, hpending⟩⟩⟩ := Authority.issue_cases hissue
  · refine ⟨fun id found hfind => ?_, fun hsome => absurd hnone hsome⟩
    simp only [hpending, Keyed.find?_put] at hfind
    split_ifs at hfind with hid
    · -- the grant of this call
      obtain rfl := some.inj hfind
      exact ⟨grant, record.log, [], _, proposal, surroundings, rfl, rfl,
        ⟨result, rfl, hstatus, hgrant⟩, hgranted, hid.symm, by simp, hsnapshot⟩
    · obtain ⟨old, before, between, issue, proposal', surroundings', hbacked⟩ :=
        h.backed id found (Authority.find?_sweep hfind)
      exact ⟨old, before, _, issue, proposal', surroundings', hbacked.extend rfl
        ⟨by simp, by simp, hnone⟩ (fun spent hspent => by cases hspent) hsnapshot⟩
  · exact ⟨fun id entry hfind => by simp [hempty] at hfind, fun _ => hempty⟩
  · have hold : ∀ id entry, after.pending.find? id = some entry →
        record.authority.pending.find? id = some entry := by
      intro id entry hfind
      rcases hpending with heq | heq
      · exact heq ▸ hfind
      · exact Authority.find?_sweep (heq ▸ hfind)
    have hsuspended : after.suspended ≠ none → after.pending = .empty := by
      intro hsome
      have hold := h.suspended (hsame ▸ hsome)
      rcases hpending with heq | heq
      · rw [heq, hold]
      · rw [heq, Authority.sweep, hold]
        rfl
    refine h.kept rfl (fun hsome => ⟨by simp, by simp, ?_⟩) (fun _ => hsnapshot)
      (fun id entry hfind => ⟨hold id entry hfind, fun spent hspent => by cases hspent⟩) hsuspended
    exact not_not.1 fun hne => hsome (hsuspended hne)

theorem backed_revoke (h : AllBacked crypto record) (nextEpoch : ℕ) :
    AllBacked crypto (record.step crypto fromSlice (.revoke nextEpoch)) := by
  rcases hrevoke : record.authority.revoke nextEpoch with ⟨after, reply⟩
  have hstep : record.step crypto fromSlice (.revoke nextEpoch) = ⟨after, record.log ++
      [⟨record.authority, .revoke nextEpoch, .revoked reply, after⟩]⟩ := by
    simp [Record.step, answer, hrevoke]
  rw [hstep]
  obtain hempty | ⟨rfl, hreply⟩ := Authority.revoke_cases hrevoke
  · exact ⟨fun id entry hfind => by simp [hempty] at hfind, fun _ => hempty⟩
  · refine h.kept rfl (fun hsome => ⟨fun heq => hreply (Reply.revoked.inj heq), by simp,
      not_not.1 fun hne => hsome (h.suspended hne)⟩)
      (fun _ => rfl) (fun id entry hfind => ⟨hfind, fun spent hspent => by cases hspent⟩) h.suspended

/-- **Pending entries keep their issue.** -/
theorem backed_step (h : AllBacked crypto record) (call : Call) :
    AllBacked crypto (record.step crypto fromSlice call) := by
  cases call with
  | issue proposal surroundings => exact backed_issue h proposal surroundings
  | consume request now =>
    rcases hconsume : record.authority.consume crypto request now with ⟨after, reply⟩
    have hstep : record.step crypto fromSlice (.consume request now) = ⟨after, record.log ++
        [⟨record.authority, .consume request now, .consumed reply, after⟩]⟩ := by
      simp [Record.step, answer, hconsume]
    rw [hstep]
    refine backed_consume h hconsume rfl rfl rfl (by simp) fun spent hspent => ?_
    cases reply with
    | ok handoff => exact ⟨(some.inj hspent).symm, handoff, rfl⟩
    | error error => cases hspent
  | consumeProposal grant proposal now =>
    rcases hconsume : record.authority.consumeProposal crypto grant proposal now with ⟨after, reply⟩
    have hstep : record.step crypto fromSlice (.consumeProposal grant proposal now) = ⟨after,
        record.log ++ [⟨record.authority, .consumeProposal grant proposal now, .consumed reply,
          after⟩]⟩ := by
      simp [Record.step, answer, hconsume]
    rw [hstep]
    obtain ⟨prepared, -, -, hconsume⟩ | ⟨error, rfl, rfl⟩ :=
      Authority.consumeProposal_cases hconsume
    · refine backed_consume h hconsume rfl rfl rfl (by simp) fun spent hspent => ?_
      cases reply with
      | ok handoff => exact ⟨(some.inj hspent).symm, handoff, rfl⟩
      | error error => cases hspent
    · exact h.kept rfl (fun hsome => ⟨by simp, by simp, not_not.1 fun hne => hsome (h.suspended hne)⟩)
        (fun _ => rfl) (fun id entry hfind => ⟨hfind, fun spent hspent => by cases hspent⟩) h.suspended
  | revoke nextEpoch => exact backed_revoke h nextEpoch
  | close =>
    refine ⟨fun id entry hfind => ?_, fun _ => rfl⟩
    cases hfind

theorem spends_cases {call : Call}
    (hspends : (⟨record.authority, call, (answer crypto fromSlice record.authority call).2,
      (answer crypto fromSlice record.authority call).1⟩ : Event cedar).spends? = some grant) :
    ∃ request now entry, request.grant = grant ∧
      record.authority.Admitted crypto request entry ∧ now < entry.deadline ∧
      digest crypto.sha256 "poo-flow/cedar/grant" grant.grantJson = .ok entry.digest ∧
      (call = .consume request now ∨ ∃ proposal prepared, call = .consumeProposal grant proposal now ∧
        request = record.authority.requestFor grant proposal ∧
        record.authority.snapshot.prepare crypto.sha256 proposal = .ok prepared ∧
        grant.payload.subject = prepared.subject) := by
  cases call with
  | consume request now =>
    rcases hconsume : record.authority.consume crypto request now with ⟨after, reply⟩
    obtain ⟨handoff, entry, rfl, hadmitted, hnow, hdigest, -⟩ | ⟨error, rfl, -⟩ :=
      Authority.consume_cases hconsume
    · simp only [answer, hconsume, Event.spends?, Prod.map] at hspends
      obtain rfl := some.inj hspends
      exact ⟨request, now, entry, rfl, hadmitted, hnow, hdigest, .inl rfl⟩
    · simp [answer, hconsume, Event.spends?] at hspends
  | consumeProposal presented proposal now =>
    rcases hconsume : record.authority.consumeProposal crypto presented proposal now with
      ⟨after, reply⟩
    obtain ⟨prepared, hprepared, hsubject, hinner⟩ | ⟨error, rfl, -⟩ :=
      Authority.consumeProposal_cases hconsume
    · obtain ⟨handoff, entry, rfl, hadmitted, hnow, hdigest, -⟩ | ⟨error, rfl, -⟩ :=
        Authority.consume_cases hinner
      · simp only [answer, hconsume, Event.spends?, Prod.map] at hspends
        obtain rfl := some.inj hspends
        exact ⟨_, now, entry, rfl, hadmitted, hnow, hdigest,
          .inr ⟨proposal, prepared, rfl, rfl, hprepared, hsubject⟩⟩
      · simp [answer, hconsume, Event.spends?] at hspends
    · simp [answer, hconsume, Event.spends?] at hspends
  | issue _ _ | revoke _ | close => simp [Event.spends?] at hspends

/-- **A consumed grant goes back to its issue.** -/
theorem accounted_step (hsha : Function.Injective crypto.sha256) (h : AllBacked crypto record)
    {call : Call}
    (hevent : event = ⟨record.authority, call, (answer crypto fromSlice record.authority call).2,
      (answer crypto fromSlice record.authority call).1⟩) (hspends : event.spends? = some grant) :
    ∃ before between issue proposal surroundings,
      Accounted crypto record.log event grant before between issue proposal surroundings := by
  subst hevent
  obtain ⟨request, now, entry, rfl, hadmitted, hnow, hdigest, hcall⟩ := spends_cases hspends
  obtain ⟨issued, before, between, issue, proposal, surroundings, hbacked⟩ :=
    h.backed _ _ hadmitted.pending
  -- the digest of the entry pins the signed grant
  have hsame : issued = request.grant := Signed.grantJson_inj
    (digest_inj hsha issued.canonical_grantJson request.grant.canonical_grantJson
      hbacked.granted.digest hdigest).2
  subst hsame
  have hhandoff : request.handoff = proposal.handoff := HandoffInput.toJson_inj
    (digest_inj hsha request.handoff.canonical_toJson proposal.handoff.canonical_toJson
      hadmitted.handoff hbacked.granted.handoff).2
  obtain ⟨prepared, hprepared, haction, hsubject, -⟩ := hbacked.granted.prepared
  have heffect : (request.action, request.intentDigest, request.handoff) =
      (prepared.action, proposal.intentDigest, proposal.handoff) := by
    rw [← hadmitted.action, haction, ← hadmitted.intent, hbacked.granted.intent, hhandoff]
  refine ⟨before, between, issue, proposal, surroundings, hbacked.split, hbacked.call,
    hbacked.reply, hbacked.quiet, ?_, ⟨prepared, hprepared, ?_⟩, ?_⟩
  · intro now' hnow'
    rw [← hbacked.granted.deadline]
    rcases hcall with rfl | ⟨presented, _, rfl, -⟩ <;> rw [← some.inj hnow'] <;> exact hnow
  · rcases hcall with rfl | ⟨presented, _, rfl, hrequest, -⟩
    · exact congrArg some heffect
    · rw [← heffect, hrequest]
      rfl
  · intro presented now' hpresented
    rcases hcall with rfl | ⟨presented', prepared', rfl, -, hprepared', hsubject'⟩
    · cases hpresented
    · obtain ⟨-, rfl, -⟩ := Call.consumeProposal.inj hpresented
      have hrendered := Snapshot.rendered_eq hsha hprepared' (hbacked.snapshot ▸ hprepared)
        (hsubject'.symm.trans hsubject)
      obtain ⟨rendered, hok, -⟩ := Snapshot.prepare_eq hprepared'
      exact ⟨rendered, hok, hbacked.snapshot ▸ (hrendered.symm.trans hok)⟩

def issuedIds (log : List (Event cedar)) : List String :=
  (log.filterMap Event.grants?).map (·.payload.grantId)

def spentIds (log : List (Event cedar)) : List String :=
  (log.filterMap Event.spends?).map (·.payload.grantId)

def Explained (crypto : Crypto) (log : List (Event cedar)) : Prop :=
  ∀ front event, front ++ [event] <+: log → ∀ grant, event.spends? = some grant →
    ∃ before between issue proposal surroundings,
      Accounted crypto front event grant before between issue proposal surroundings

theorem explained_run (hsha : Function.Injective crypto.sha256) {start : Authority cedar}
    (hstart : start.pending = .empty) (calls : List Call) :
    Explained crypto (run (Record.step crypto fromSlice) ⟨start, []⟩ calls).log := by
  suffices h : AllBacked crypto (run (Record.step crypto fromSlice) ⟨start, []⟩ calls) ∧
      Explained crypto (run (Record.step crypto fromSlice) ⟨start, []⟩ calls).log from h.2
  refine run_invariant (I := fun record => AllBacked crypto record ∧ Explained crypto record.log)
    (fun record call hrecord => ⟨backed_step hrecord.1 call, ?_⟩) ⟨?_, ?_⟩ calls
  · intro front event hleads grant hspends
    rcases prefix_concat_iff.1 hleads with heq | hleads
    · obtain ⟨rfl, hevent⟩ := append_inj' heq rfl
      exact accounted_step hsha hrecord.1 (singleton_inj.1 hevent) hspends
    · exact hrecord.2 front event hleads grant hspends
  · exact ⟨fun id entry hfind => by simp [hstart] at hfind, fun _ => hstart⟩
  · intro front event hleads
    simp at hleads

theorem mem_issuedIds {log : List (Event cedar)} (hevent : event ∈ log)
    (hgrant : event.grants? = some grant) : grant.payload.grantId ∈ issuedIds log :=
  mem_map_of_mem (mem_filterMap.2 ⟨event, hevent, hgrant⟩)

theorem Explained.nodup {log : List (Event cedar)} (h : Explained crypto log)
    (hfresh : (issuedIds log).Nodup) : (spentIds log).Nodup := by
  induction log using List.reverseRecOn with
  | nil => exact nodup_nil
  | append_singleton log event ih =>
    have hfront : Explained crypto log := fun front event' hleads =>
      h front event' (hleads.trans (prefix_append _ _))
    have hids : issuedIds (log ++ [event]) = issuedIds log ++ issuedIds [event] := by
      simp [issuedIds]
    have hnodup := ih hfront (List.Nodup.of_append_left (hids ▸ hfresh))
    have hspent : spentIds (log ++ [event]) = spentIds log ++ spentIds [event] := by
      simp [spentIds]
    rw [hspent]
    cases hspends : event.spends? with
    | none => simpa [spentIds, hspends] using hnodup
    | some grant =>
      have hlast : spentIds [event] = [grant.payload.grantId] := by simp [spentIds, hspends]
      rw [hlast, ← concat_eq_append]
      refine List.Nodup.concat ?_ hnodup
      -- an earlier consumption has an issue of its own
      intro hmem
      obtain ⟨spent, hmem, hid⟩ := mem_map.1 hmem
      obtain ⟨earlier, hearlier, hspent⟩ := mem_filterMap.1 hmem
      obtain ⟨before, between, issue, proposal, surroundings, hlater⟩ :=
        h log event (prefix_rfl) grant hspends
      have hlog := hlater.split
      rw [hlog] at hearlier
      have hissue := hlater.grants
      rcases mem_append.1 hearlier with hbefore | hrest
      · obtain ⟨head, tail, hhead⟩ := append_of_mem hbefore
        obtain ⟨before', between', issue', proposal', surroundings', hfirst⟩ :=
          hfront head earlier ⟨tail ++ issue :: between, by simp [hlog, hhead]⟩ spent hspent
        have hissue' := hfirst.grants
        have hmem' : issue' ∈ before := by simp [hhead, hfirst.split]
        have hnodup' := List.Nodup.of_append_left (hids ▸ hfresh)
        rw [hlog, issuedIds, filterMap_append, map_append] at hnodup'
        refine (nodup_append.1 hnodup').2.2 _ (mem_issuedIds hmem' hissue') _
          (mem_issuedIds mem_cons_self hissue) hid
      · rcases mem_cons.1 hrest with rfl | hbetween
        · simp [Event.spends?, hlater.call] at hspent
        · exact (hlater.quiet earlier hbetween).2 spent hspent hid

/-- **Grants are single-use and bound to what was evaluated.** In every run of an
authority that starts with nothing pending, when the hash is injective and no
grant id is returned twice, no grant id is consumed twice, and every consumption
goes back to the authorized issue of that grant. -/
theorem grants_single_use (crypto : Crypto) (fromSlice : List UInt8 → Except String RuntimeReply)
    (hsha : Function.Injective crypto.sha256) (start : Authority cedar)
    (hstart : start.pending = .empty) (calls : List Call)
    (hfresh : (issuedIds (run (Record.step crypto fromSlice) ⟨start, []⟩ calls).log).Nodup) :
    (spentIds (run (Record.step crypto fromSlice) ⟨start, []⟩ calls).log).Nodup ∧
      Explained crypto (run (Record.step crypto fromSlice) ⟨start, []⟩ calls).log :=
  have hexplained := explained_run hsha hstart calls
  ⟨hexplained.nodup hfresh, hexplained⟩

end

variable {crypto : Crypto} {fromSlice : List UInt8 → Except String RuntimeReply} {call : Call}

theorem issuedIds_step {record : Record cedar}
    (hcall : ∀ proposal surroundings, call ≠ .issue proposal surroundings) :
    issuedIds (record.step crypto fromSlice call).log = issuedIds record.log := by
  have hnone : ∀ event : Event cedar, event.grants? = none →
      issuedIds (record.log ++ [event]) = issuedIds record.log := by
    intro event hevent
    simp [issuedIds, hevent]
  refine hnone _ ?_
  cases call with
  | issue proposal surroundings => exact absurd rfl (hcall proposal surroundings)
  | consume _ _ | consumeProposal _ _ _ | revoke _ | close => rfl

theorem issuedIds_single (start : Authority cedar) (proposal : Proposal)
    (surroundings : Surroundings) {calls : List Call}
    (hcalls : ∀ call ∈ calls, ∀ proposal surroundings, call ≠ .issue proposal surroundings) :
    (issuedIds (run (Record.step crypto fromSlice) ⟨start, []⟩
      (.issue proposal surroundings :: calls)).log).Nodup := by
  rw [run_cons]
  have hsingle : (issuedIds (Record.step crypto fromSlice ⟨start, []⟩
      (.issue proposal surroundings)).log).Nodup := by
    rw [issuedIds, Record.step]
    simp only [nil_append, filterMap_cons, filterMap_nil]
    split <;> simp
  generalize Record.step crypto fromSlice ⟨start, []⟩ (.issue proposal surroundings) = record
    at hsingle
  induction calls generalizing record with
  | nil => exact hsingle
  | cons call calls ih =>
    rw [run_cons]
    refine ih (fun later hlater => hcalls later (mem_cons_of_mem call hlater)) _ ?_
    rwa [issuedIds_step (hcalls call mem_cons_self)]

/-- The grant that the authority issues for `demoProposal`. -/
def demoGrant (crypto : Crypto) : Option (Signed Grant) :=
  (demoAuthority.issue crypto replyFromSlice demoProposal
    (demoSurroundings crypto "allow")).2.toOption.bind (·.grant)

def presentations (start : Authority cedar) (proposal : Proposal) (grant : Signed Grant) :
    List Call :=
  [.consume (start.requestFor grant proposal) 20, .consumeProposal grant proposal 30]

theorem ne_issue_of_mem_presentations {start : Authority cedar}
    {grants : List (Signed Grant)} (hcall : call ∈ grants.flatMap (presentations start proposal))
    (other : Proposal) (surroundings : Surroundings) : call ≠ .issue other surroundings := by
  obtain ⟨grant, -, hmem⟩ := mem_flatMap.1 hcall
  rcases mem_pair.1 hmem with rfl | rfl <;> exact Call.noConfusion

def demoCalls (crypto : Crypto) : List Call :=
  .issue demoProposal (demoSurroundings crypto "allow") ::
    (demoGrant crypto).toList.flatMap (presentations demoAuthority demoProposal)

def demoInjective : Crypto :=
  { demoCrypto with sha256 := id }

/-- **A grant that is issued, spent and presented again**, under an injective hash. -/
theorem demo_grants_single_use :
    (spentIds (run (Record.step demoInjective replyFromSlice) ⟨demoAuthority, []⟩
        (demoCalls demoInjective)).log).Nodup ∧
      Explained demoInjective
        (run (Record.step demoInjective replyFromSlice) ⟨demoAuthority, []⟩
          (demoCalls demoInjective)).log :=
  grants_single_use demoInjective replyFromSlice Function.injective_id demoAuthority rfl
    (demoCalls demoInjective)
    (issuedIds_single demoAuthority demoProposal (demoSurroundings demoInjective "allow")
      fun _ hcall => ne_issue_of_mem_presentations hcall)

end PooFlow.Cedar
