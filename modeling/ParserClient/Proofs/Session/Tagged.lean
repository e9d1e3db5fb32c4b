import ParserClient.Proofs.Session.Deadline
import ParserClient.Proofs.Session.Pairing
import ParserClient.Report

/-!
# Sessions whose tag names an encoding

An operation of a session leaves the client as it is, unless it assigns a tag. So a session in which
none is assigned goes by the tag that its client has been configured with. If this is the name of an
encoding no request fails for the tag, in any interleaving: not when it is made, and an exchange, a
deadline and a reply have faults of their own.

## Main results

* `State.Performs.client` — an operation leaves the client, unless it assigns a tag.
* `State.Performs.kind` — no request fails for a tag that is the name of an encoding.
* `Session.kind` — this holds in a session until another tag is assigned.
-/

namespace ParserClient

/-! ### The client of a session -/

namespace State

variable {s s' : State}

theorem LetsGo.client (h : s.LetsGo s') : s'.client = s.client := by
  cases h <;> rfl

theorem Uses.client (h : s.Uses s') : s'.client = s.client := by
  cases h <;> rfl

theorem Begins.client (h : s.Begins s') : s'.client = s.client := by
  cases h with
  | running => rfl
  | kept hgo => exact hgo.client
  | used _ hgo hu => exact hu.client.trans hgo.client

/-- An operation leaves the client, unless it assigns a tag. -/
theorem Performs.client {command : Command} {outcome : Outcome} (hs : s.Quiet)
    (h : s.Performs command outcome s') (hkeep : ∀ tag, command ≠ .setEncoding tag) :
    s'.client = s.client := by
  cases h with
  | start | enter => exact s.begins_start.client
  | close | exit => exact s.letsGo_close.client
  | setEncoding tag => exact absurd rfl (hkeep tag)
  | parse ha => exact ha.client hs
  | parseTwo hmoves ha =>
    obtain ⟨c, mid, hfirst, hsecond⟩ := answers_of_moves hs hmoves ha
    exact (hsecond.client (hfirst.quiet hs)).trans (hfirst.client hs)

end State

/-- A session in which no tag is assigned is one of its client to the end. -/
theorem Session.client_eq {client : Client} {launches : List Launch} {episodes : List Episode}
    {s : State} (h : Session client launches episodes s)
    (hkeep : ∀ episode ∈ episodes, ∀ tag, episode.command ≠ .setEncoding tag) :
    s.client = client := by
  induction h with
  | nil => rfl
  | snoc hsession hp ih =>
    have hbefore := ih fun episode hmem => hkeep episode (List.mem_append_left _ hmem)
    have hlast := hkeep _ (List.mem_append_right _ (List.mem_singleton_self _))
    exact (hp.client hsession.orderly.quiet hlast).trans hbefore

/-! ### Faults of the tag -/

/-- No fault of an exchange is one of a tag. -/
theorem Fault.kind_of_isOfExchange {f : Fault} (h : f.isOfExchange = true) :
    f.report.kind ≠ .invalidEncoding := by
  cases f with
  | frame g => cases g <;> exact nofun
  | oversized | tooDeep | noBytes | crashed => exact nofun
  | _ => cases h

theorem Fault.kind_ofDeadline (deadline : Option Seconds) :
    (ofDeadline deadline).report.kind ≠ .invalidEncoding := by
  rcases ofDeadline_cases deadline with ⟨-, h⟩ | ⟨o, -, h⟩ <;> rw [h] <;> exact nofun

theorem Reply.kind_of_answer {reply : Reply} {f : Fault} (h : reply.answer = .error f) :
    f.report.kind ≠ .invalidEncoding := by
  rcases reply.answer_eq_error h with ⟨_, rfl⟩ | ⟨_, rfl⟩ | ⟨_, rfl⟩ <;> exact nofun

namespace State

variable {s s' : State} {e : ContentEncoding} {f : Fault}

theorem kind_of_requestFor (htag : ContentEncoding.ofValue s.client.encoding = .ok e)
    {content : Text} (h : World.requestFor s content = .error f) :
    f.report.kind ≠ .invalidEncoding := by
  have hcases : f = .notRunning ∨ ∃ cause, f = .unencodable cause := by
    simp only [World.requestFor, htag] at h
    split at h
    · split at h
      · next cause _ => exact .inr ⟨cause, (Except.error.inj h).symm⟩
      · cases h
    · exact .inl (Except.error.inj h).symm
  rcases hcases with rfl | ⟨cause, rfl⟩ <;> simp [Fault.report, Report.kind]

/-- A request of a session whose tag is the name of an encoding does not fail for the tag. -/
theorem Answers.kind {c : Caller} {q : Ask} (hs : s.Quiet)
    (htag : ContentEncoding.ofValue s.client.encoding = .ok e)
    (h : s.Answers c q (.error f) s') : f.report.kind ≠ .invalidEncoding := by
  rcases h.cases hs with ⟨g, hg, hr, -⟩ | ⟨child, r, t, u, -, hserved⟩
  · obtain rfl := Except.error.inj hg
    exact kind_of_requestFor htag hr
  · obtain ⟨early, -, hanswer⟩ := hserved.answer
    rcases World.judged_eq_error hanswer.symm with ⟨-, rfl⟩ | hexchange | ⟨reply, hreply⟩
    · exact Fault.kind_ofDeadline _
    · exact Fault.kind_of_isOfExchange (Child.isOfExchange_of_dialogue hexchange)
    · exact Reply.kind_of_answer hreply

theorem Performs.kind {command : Command} {outcome : Outcome} (hs : s.Quiet)
    (htag : ContentEncoding.ofValue s.client.encoding = .ok e)
    (h : s.Performs command outcome s') {c : Caller}
    (hf : outcome.answer? c = some (.error f)) : f.report.kind ≠ .invalidEncoding := by
  obtain ⟨mid, q, s'', hmid, hclient, ha⟩ := h.exists_answers hs hf
  exact ha.kind hmid (hclient ▸ htag)

end State

/-- Until another tag is assigned in a session of a client whose tag is the name of an encoding, no
request fails for the tag. -/
theorem Session.kind {client : Client} {launches : List Launch} {episodes : List Episode}
    {s s' : State} {e : ContentEncoding} (h : Session client launches episodes s)
    (htag : ContentEncoding.ofValue client.encoding = .ok e)
    (hkeep : ∀ episode ∈ episodes, ∀ tag, episode.command ≠ .setEncoding tag)
    {command : Command} {outcome : Outcome} (hp : s.Performs command outcome s') {c : Caller}
    {f : Fault} (hf : outcome.answer? c = some (.error f)) :
    f.report.kind ≠ .invalidEncoding :=
  hp.kind h.orderly.quiet (h.client_eq hkeep ▸ htag) hf

end ParserClient
