import ParserClient.Proofs.Frame.Calls
import ParserClient.Proofs.Frame.OneLine
import ParserClient.Proofs.Json.Stops
import ParserClient.Proofs.Message.Issues

/-!
# Which lines escape the framing faults

A call for a message should end with a message or with a fault of the exchange of lines. It does so
on every line but those of a few kinds: a line in which containers nest too deep, a line with an
integer of too many digits, for a reply a line with a tree that there is no room to make, and for
settings a line whose encoding there is no room to show, or is a text with a lone half. On these,
and on no others, the call ends with a fault from outside the family, so a request that outlives its
deadline is not told so when such a reply is read after the kill.

## Main definitions

* `FrameFault.IsOfReading` — the faults that a call for a message may end with.
* `ReadCall.fits`, `ReadCall.issues` — what keeps a tree from being the message that a call asks
  for.
* `Escape` — a text, and the fault outside the family that it brings about.

## Main results

* `ReadCall.fault_of_ofLine`, `ReadCall.ofLine_of_escape` — one line.
* `message_call_escapes` — one call on a stream.
* `not_confined_to_framing` — a line of digits.
-/

namespace ParserClient

/-! ### One line -/

/-- A call for a message may end with the fault: the stream has ended or is closed, the reading call
is refused, or the line is not the message that is asked for. -/
def FrameFault.IsOfReading : FrameFault → Prop
  | .ended | .closed _ | .unreadable _ | .malformed _ | .rejected _ _ => True
  | .unencodable _ | .unwritable _ => False

/-- A call for a message on a line with the text ends with the fault, which is not one of the
exchange of lines. -/
inductive Escape (room : Room) (call : ReadCall) (t : Text) : Fault → Prop
  /-- Containers nest too deep. -/
  | deep (hread : Json.read room.depth t = .error .tooDeep)
      (hopens : room.depth < t.countP Json.opens) : Escape room call t .tooDeep
  /-- An integer has too many digits. -/
  | long {run : Text} (hread : Json.read room.depth t = .error (.oversized (.read run.length)))
      (hrun : Json.IsLongRun run t) : Escape room call t (.oversized (.read run.length))
  /-- There is no room to make the tree of a reply. -/
  | unmade {reply tree : Tree} (hcall : call = .reply)
      (hread : Json.read room.depth t = .ok reply) (hfield : reply.field? "ast" = some tree)
      (hframes : room.frames < tree.frames) : Escape room call t .tooDeep
  /-- There is no room to show the encoding of settings. -/
  | unshown {settings tag : Tree} (hcall : call = .settings)
      (hread : Json.read room.depth t = .ok settings)
      (hfield : settings.field? "encoding" = some tag) (hlevels : room.levels < tag.levels) :
      Escape room call t .tooDeep
  /-- The encoding of settings is refused in words that have no bytes. -/
  | mute {settings : Tree} {tag : Text} {cause : Utf8.Unencodable} (hcall : call = .settings)
      (hread : Json.read room.depth t = .ok settings)
      (hfield : settings.field? "encoding" = some (.text tag))
      (hcause : Utf8.encode (Settings.refusal tag) = .error cause) :
      Escape room call t (.noBytes cause)

theorem eq_error_of_map {ε α β : Type} {r : Except ε α} {make : α → β} {e : ε}
    (h : r.map make = .error e) : r = .error e := by
  cases r with
  | ok a => cases h
  | error e' =>
    cases h
    rfl

namespace Frame

variable {room : Room} {line : Bytes} {tree : Tree} {f : Fault}

theorem readTree_eq_ok (h : readTree room line = .ok tree) :
    ∃ t, Utf8.decode line = .ok t ∧ Json.read room.depth t = .ok tree := by
  unfold readTree at h
  split at h
  · cases h
  · next t hdecode =>
    split at h <;> cases h
    next hread => exact ⟨t, hdecode, hread⟩

/-- A line that is no tree is malformed, or stops the reader of JSON. -/
theorem readTree_eq_error (h : readTree room line = .error f) :
    (∃ cause, f = .frame (.malformed cause)) ∨ ∃ t, Utf8.decode line = .ok t ∧
      (Json.read room.depth t = .error .tooDeep ∧ f = .tooDeep ∨
        ∃ o, Json.read room.depth t = .error (.oversized o) ∧ f = .oversized o) := by
  unfold readTree at h
  split at h
  · cases h
    exact .inl ⟨_, rfl⟩
  · next t hdecode =>
    split at h <;> cases h
    · exact .inl ⟨_, rfl⟩
    · next hread => exact .inr ⟨t, hdecode, .inl ⟨hread, rfl⟩⟩
    · next o hread => exact .inr ⟨t, hdecode, .inr ⟨o, hread, rfl⟩⟩

variable {α : Type} {fits : Tree → Bool} {shape : Shape}
  {ofValue : Value → Except (List Issue) α}

theorem readAs_of_readTree_error (h : readTree room line = .error f) :
    readAs room fits shape ofValue line = .error f := by
  rw [readAs, h]

theorem readAs_of_not_fits (h : readTree room line = .ok tree) (hfits : fits tree = false) :
    readAs room fits shape ofValue line = .error .tooDeep := by
  simp only [readAs, h, hfits, Bool.false_eq_true, ↓reduceIte]

theorem ofTree_of_unencodable {cause : Utf8.Unencodable}
    (hcause : (issuesIn (ofValue tree.toValue)).findSome? Issue.unencodable? = some cause) :
    ofTree shape ofValue tree = .error (.noBytes cause) := by
  rw [ofTree]
  cases hvalue : ofValue tree.toValue with
  | ok a => simp [hvalue, issuesIn] at hcause
  | error issues =>
    rw [hvalue, issuesIn] at hcause
    simp only [Except.mapError, Fault.ofIssuesAs, hcause]

theorem readAs_of_unencodable {cause : Utf8.Unencodable} (h : readTree room line = .ok tree)
    (hfits : fits tree = true)
    (hcause : (issuesIn (ofValue tree.toValue)).findSome? Issue.unencodable? = some cause) :
    readAs room fits shape ofValue line = .error (.noBytes cause) := by
  simp only [readAs, h, hfits, ↓reduceIte, ofTree_of_unencodable hcause]

/-- A tree that is not the message of a shape is rejected, or is one on which the issues cannot be
reported. -/
theorem ofTree_eq_error (h : ofTree shape ofValue tree = .error f) :
    (∃ issues, f = .frame (.rejected shape issues)) ∨ ∃ cause, f = .noBytes cause ∧
      (issuesIn (ofValue tree.toValue)).findSome? Issue.unencodable? = some cause := by
  rw [ofTree] at h
  cases hvalue : ofValue tree.toValue with
  | ok a => simp [hvalue, Except.mapError] at h
  | error issues =>
    simp only [hvalue, Except.mapError, Except.error.injEq, Fault.ofIssuesAs] at h
    split at h
    · next cause hcause => exact .inr ⟨cause, h.symm, hcause⟩
    · exact .inl ⟨issues, h.symm⟩

/-- A line that is not the message of a shape is no tree, is one for which there is no room, is
rejected, or is one on which the issues cannot be reported. -/
theorem readAs_eq_error (h : readAs room fits shape ofValue line = .error f) :
    readTree room line = .error f ∨ ∃ tree, readTree room line = .ok tree ∧
      (fits tree = false ∧ f = .tooDeep ∨ (∃ issues, f = .frame (.rejected shape issues)) ∨
        ∃ cause, f = .noBytes cause ∧
          (issuesIn (ofValue tree.toValue)).findSome? Issue.unencodable? = some cause) := by
  unfold readAs at h
  split at h
  · next hread =>
    cases h
    exact .inl hread
  · next tree hread =>
    refine .inr ⟨tree, hread, ?_⟩
    split at h
    · exact .inr (ofTree_eq_error h)
    · next hfits =>
      cases h
      exact .inl ⟨Bool.not_eq_true _ ▸ hfits, rfl⟩

end Frame

namespace Room

variable {room : Room} {found : Tree}

theorem holds_eq_false : room.holds found = false ↔
    ∃ tree, found.field? "ast" = some tree ∧ room.frames < tree.frames := by
  cases hfield : found.field? "ast" <;> simp [holds, hfield]

theorem shows_eq_false : room.shows found = false ↔
    ∃ tag, found.field? "encoding" = some tag ∧ room.levels < tag.levels := by
  cases hfield : found.field? "encoding" <;> simp [shows, hfield]

/-- A text is shown without any room. -/
theorem shows_of_text {tag : Text} (h : found.field? "encoding" = some (.text tag)) :
    room.shows found = true := by
  simp [shows, h, Tree.levels]

end Room

namespace ReadCall

variable {room : Room} {call : ReadCall} {line : Bytes} {f : Fault}

/-- There is room for what a call makes of a tree. -/
def fits (room : Room) (call : ReadCall) (tree : Tree) : Bool :=
  match call with
  | .reply => room.holds tree
  | .settings => room.shows tree
  | _ => true

/-- What keeps a tree from being the message that is asked for. -/
def issues (call : ReadCall) (tree : Tree) : List Issue :=
  match call with
  | .reply => issuesIn (Reply.ofValue tree.toValue)
  | .request => issuesIn (Request.ofValue tree.toValue)
  | .settings => issuesIn (Settings.ofValue tree.toValue)
  | _ => []

/-- Only a call for settings meets issues that cannot be reported. -/
theorem findSome?_issues {tree : Tree} {cause : Utf8.Unencodable} :
    (call.issues tree).findSome? Issue.unencodable? = some cause ↔
      call = .settings ∧ ∃ tag, tree.field? "encoding" = some (.text tag) ∧
        Utf8.encode (Settings.refusal tag) = .error cause := by
  have hfixed : ∀ issues : List Issue, (∀ i ∈ issues, i.want.IsFixed) →
      issues.findSome? Issue.unencodable? ≠ some cause := by
    intro issues h
    rw [List.findSome?_eq_none_iff.mpr fun i hi => Issue.unencodable?_of_isFixed (h i hi)]
    exact Option.some_ne_none cause |>.symm
  cases call with
  | settings => simpa [issues] using Settings.findSome?_unencodable
  | reply => simpa [issues] using hfixed _ fun i => Reply.isFixed_of_issue
  | request => simpa [issues] using hfixed _ fun i => Request.isFixed_of_issue
  | tree | raw => simp [issues]

/-- A line that is not the message that is asked for is no tree, is one for which there is no room,
is rejected, or is one on which the issues cannot be reported. -/
theorem ofLine_eq_error (hcall : call ≠ .raw) (h : call.ofLine room line = .error f) :
    Frame.readTree room line = .error f ∨ ∃ tree, Frame.readTree room line = .ok tree ∧
      (call.fits room tree = false ∧ f = .tooDeep ∨
        (∃ shape issues, f = .frame (.rejected shape issues)) ∨ ∃ cause, f = .noBytes cause ∧
          (call.issues tree).findSome? Issue.unencodable? = some cause) := by
  have hshaped : ∀ {α : Type} {fits : Tree → Bool} {shape : Shape}
      {ofValue : Value → Except (List Issue) α},
      Frame.readAs room fits shape ofValue line = .error f →
      Frame.readTree room line = .error f ∨ ∃ tree, Frame.readTree room line = .ok tree ∧
        (fits tree = false ∧ f = .tooDeep ∨
          (∃ shape issues, f = .frame (.rejected shape issues)) ∨ ∃ cause, f = .noBytes cause ∧
            (issuesIn (ofValue tree.toValue)).findSome? Issue.unencodable? = some cause) :=
    fun h => (Frame.readAs_eq_error h).imp_right fun ⟨found, hread, hf⟩ =>
      ⟨found, hread, hf.imp_right fun hf => hf.imp_left fun ⟨issues, hf⟩ => ⟨_, issues, hf⟩⟩
  cases call with
  | raw => exact absurd rfl hcall
  | tree => exact .inl (eq_error_of_map h)
  | reply => exact hshaped (eq_error_of_map h)
  | request => exact hshaped (eq_error_of_map h)
  | settings => exact hshaped (eq_error_of_map h)

theorem ofLine_of_readTree_error (hcall : call ≠ .raw) (h : Frame.readTree room line = .error f) :
    call.ofLine room line = .error f := by
  cases call with
  | raw => exact absurd rfl hcall
  | tree => rw [ofLine, h]; rfl
  | reply => rw [ofLine, Frame.readReply, Frame.readAs_of_readTree_error h]; rfl
  | request => rw [ofLine, Frame.readRequest, Frame.readAs_of_readTree_error h]; rfl
  | settings => rw [ofLine, Frame.readSettings, Frame.readAs_of_readTree_error h]; rfl

/-- A tree for which there is no room escapes. -/
theorem escape_of_fits_eq_false {t : Text} {found : Tree}
    (hread : Json.read room.depth t = .ok found) (h : call.fits room found = false) :
    Escape room call t .tooDeep := by
  cases call with
  | reply =>
    obtain ⟨tree, hfield, hframes⟩ := Room.holds_eq_false.mp h
    exact .unmade rfl hread hfield hframes
  | settings =>
    obtain ⟨tag, hfield, hlevels⟩ := Room.shows_eq_false.mp h
    exact .unshown rfl hread hfield hlevels
  | tree | request | raw => cases h

/-- What a call for a message comes to on a line, if not to a message: to a fault of reading, or to
one outside the family that the text of the line brings about. -/
theorem fault_of_ofLine (hcall : call ≠ .raw) (h : call.ofLine room line = .error f) :
    (∃ g, f = .frame g ∧ g.IsOfReading) ∨
      ∃ t, Utf8.decode line = .ok t ∧ Escape room call t f := by
  rcases ofLine_eq_error hcall h with hread | ⟨tree, hread, hf⟩
  · rcases Frame.readTree_eq_error hread with
      ⟨cause, rfl⟩ | ⟨t, hdecode, ⟨hdeep, rfl⟩ | ⟨o, hlong, rfl⟩⟩
    · exact .inl ⟨_, rfl, trivial⟩
    · exact .inr ⟨t, hdecode, .deep hdeep (Json.opens_of_tooDeep hdeep)⟩
    · obtain ⟨run, hrun, rfl⟩ := Json.isLongRun_of_oversized hlong
      exact .inr ⟨t, hdecode, .long hlong hrun⟩
  · obtain ⟨t, hdecode, hjson⟩ := Frame.readTree_eq_ok hread
    rcases hf with ⟨hfits, rfl⟩ | ⟨shape, issues, rfl⟩ | ⟨cause, rfl, hcause⟩
    · exact .inr ⟨t, hdecode, escape_of_fits_eq_false hjson hfits⟩
    · exact .inl ⟨_, rfl, trivial⟩
    · obtain ⟨hsettings, tag, hfield, hencode⟩ := findSome?_issues.mp hcause
      exact .inr ⟨t, hdecode, .mute hsettings hjson hfield hencode⟩

/-- What a call for a message comes to at the item at which it stops, if not to a message. -/
theorem fault_of_answer (hcall : call ≠ .raw) {stop : Option Delivery}
    (h : call.answer room stop = .error f) :
    (∃ g, f = .frame g ∧ g.IsOfReading) ∨
      ∃ line t, stop = some (.bytes line) ∧ Utf8.decode line = .ok t ∧ Escape room call t f := by
  rcases stop with - | (line | m | g)
  · cases h
    exact .inl ⟨_, rfl, trivial⟩
  · exact (fault_of_ofLine hcall h).imp_right fun ⟨t, hdecode, hescape⟩ =>
      ⟨line, t, rfl, hdecode, hescape⟩
  · cases h
    exact .inl ⟨_, rfl, by cases m <;> trivial⟩
  · cases h
    exact .inl ⟨_, rfl, trivial⟩

/-- A line whose text escapes does so in every call for the message. -/
theorem ofLine_of_escape (hcall : call ≠ .raw) {t : Text} (hdecode : Utf8.decode line = .ok t)
    (h : Escape room call t f) : call.ofLine room line = .error f := by
  have hfound {found : Tree} (hread : Json.read room.depth t = .ok found) :
      Frame.readTree room line = .ok found := by
    simp only [Frame.readTree, hdecode, hread]
  cases h with
  | deep hread _ =>
    exact ofLine_of_readTree_error hcall (by simp only [Frame.readTree, hdecode, hread])
  | long hread _ =>
    exact ofLine_of_readTree_error hcall (by simp only [Frame.readTree, hdecode, hread])
  | unmade hreply hread hfield hframes =>
    subst hreply
    have hfits := Room.holds_eq_false.mpr ⟨_, hfield, hframes⟩
    rw [ofLine, Frame.readReply, Frame.readAs_of_not_fits (hfound hread) hfits]
    rfl
  | unshown hsettings hread hfield hlevels =>
    subst hsettings
    have hfits := Room.shows_eq_false.mpr ⟨_, hfield, hlevels⟩
    rw [ofLine, Frame.readSettings, Frame.readAs_of_not_fits (hfound hread) hfits]
    rfl
  | mute hsettings hread hfield hcause =>
    have hissues := findSome?_issues.mpr ⟨hsettings, _, hfield, hcause⟩
    subst hsettings
    rw [ofLine, Frame.readSettings,
      Frame.readAs_of_unencodable (hfound hread) (Room.shows_of_text hfield) hissues]
    rfl

end ReadCall

/-! ### Calls on a stream -/

/-- The items of a byte string are lines that are not empty. -/
theorem Delivery.isMet_ofBytes (stream : Bytes) : ∀ d ∈ ofBytes stream, d.IsMet := by
  intro d hd
  obtain ⟨line, hline, rfl⟩ := List.mem_map.mp hd
  exact ne_nil_of_mem_linesOf hline

/-- A call for a message ends on every script, at the item behind the blank lines that come first.
If it does not give a message, it ends with a fault of reading, unless it has stopped at a line that
escapes; and it ends with the other fault wherever it stops at such a line. -/
theorem message_call_escapes (room : Room) {call : ReadCall} (hcall : call ≠ .raw)
    {items : List Delivery} (h : ∀ d ∈ items, d.IsMet) (isOpen : Gate → Bool) :
    ∃ (stretch : Stretch) (left : List Delivery) (result : Except Fault Message),
      items = stretch.items ++ left ∧ stretch.IsTakenBy call ∧
      call.perform room isOpen items = some ⟨stretch.passed.length + 1, result, left⟩ ∧
      (∀ f, result = .error f → (∃ g, f = .frame g ∧ g.IsOfReading) ∨
        ∃ line t, stretch.stop = some (.bytes line) ∧ Utf8.decode line = .ok t ∧
          Escape room call t f) ∧
      ∀ line t f, stretch.stop = some (.bytes line) → Utf8.decode line = .ok t →
        Escape room call t f → result = .error f := by
  obtain ⟨stretch, left, hsplit, htaken, -, hperform⟩ := call.perform_takes room isOpen h
  refine ⟨stretch, left, _, hsplit, htaken, hperform,
    fun f => ReadCall.fault_of_answer hcall, fun line t f hstop hdecode hescape => ?_⟩
  rw [hstop]
  exact ReadCall.ofLine_of_escape hcall hdecode hescape

/-- A room in which containers may nest four deep, a tree may take up nine frames, and a tag may be
shown on one level. -/
def Room.cramped : Room := ⟨4, 9, 1⟩

/-- Calls and streams with a blank line and a line that escapes in a cramped room: five brackets, a
reply whose tree is three arrays, settings whose encoding is two arrays, and settings with half of a
surrogate pair for an encoding. -/
def Delivery.crampedStreams : List (ReadCall × Bytes) :=
  [(.request, [9, 10, 91, 91, 91, 91, 91]),
    (.reply, [9, 10, 123, 34, 97, 115, 116, 34, 58, 91, 91, 91, 93, 93, 93, 125]),
    (.settings,
      [9, 10, 123, 34, 101, 110, 99, 111, 100, 105, 110, 103, 34, 58, 91, 91, 93, 93, 125]),
    (.settings,
      [9, 10, 123, 34, 101, 110, 99, 111, 100, 105, 110, 103, 34, 58, 34, 92, 117, 100, 56, 48, 48,
        34, 125])]

/-- The calls on these streams. -/
theorem cramped_streams_escape :
    Delivery.crampedStreams.Forall fun (call, stream) =>
      (call ≠ .raw ∧ ∀ d ∈ Delivery.ofBytes stream, d.IsMet) ∧
      ∃ f line t,
        call.perform .cramped (fun _ => false) (Delivery.ofBytes stream) =
          some ⟨2, .error f, []⟩ ∧
        Utf8.decode line = .ok t ∧ Escape .cramped call t f := by
  have hescapes (call : ReadCall) (stream : Bytes) (f : Fault) (hf : ∀ g, f ≠ .frame g)
      (hcall : call ≠ .raw) (hperform : call.perform .cramped (fun _ => false)
        (Delivery.ofBytes stream) = some ⟨2, .error f, []⟩) :
      (call ≠ .raw ∧ ∀ d ∈ Delivery.ofBytes stream, d.IsMet) ∧ ∃ f line t,
        call.perform .cramped (fun _ => false) (Delivery.ofBytes stream) =
          some ⟨2, .error f, []⟩ ∧
        Utf8.decode line = .ok t ∧ Escape .cramped call t f := by
    have hmet := Delivery.isMet_ofBytes stream
    refine ⟨⟨hcall, hmet⟩, f, ?_⟩
    obtain ⟨stretch, left, result, -, -, hresult, hfault, -⟩ :=
      message_call_escapes .cramped hcall hmet fun _ => false
    obtain ⟨-, rfl, -⟩ := ReadOutcome.mk.inj (Option.some.inj (hresult.symm.trans hperform))
    rcases hfault f rfl with ⟨g, hg, -⟩ | ⟨line, t, -, hdecode, hescape⟩
    · exact absurd hg (hf g)
    · exact ⟨line, t, hperform, hdecode, hescape⟩
  simp only [Delivery.crampedStreams, List.Forall]
  refine ⟨hescapes _ _ .tooDeep nofun nofun ?_, hescapes _ _ .tooDeep nofun nofun ?_,
    hescapes _ _ .tooDeep nofun nofun ?_, hescapes _ _ (.noBytes ⟨18, 1, 0⟩) nofun nofun ?_⟩
  all_goals rfl

/-- A line of ones, `n + 1` of them. -/
def Frame.lineOfOnes (n : Nat) : Bytes := List.replicate (n + 1) 49 ++ [10]

namespace Frame

theorem isLine_lineOfOnes (n : Nat) : IsLine (lineOfOnes n) where
  ends := ⟨_, rfl, fun h => absurd (List.eq_of_mem_replicate h) (by decide)⟩
  shown := by
    rw [lineOfOnes, List.replicate_succ, List.cons_append, isBlank, List.all_cons]
    rfl

theorem encode_ones (n : Nat) :
    Utf8.encode ((List.replicate (n + 1) '1').map .scalar ++ ("\n" : Text)) =
      .ok (lineOfOnes n) := by
  refine encode_append_feed (Utf8.encode_eq_ok_iff.mpr ⟨_, rfl, ?_⟩)
  have hone : String.utf8EncodeChar '1' = [49] := rfl
  generalize n + 1 = m
  induction m with
  | zero => rfl
  | succ m ih => rw [List.replicate_succ, List.replicate_succ, List.flatMap_cons, hone, ← ih]; rfl

/-- A line of ones is not read if it is longer than an integer may be. -/
theorem readTree_lineOfOnes (room : Room) {n : Nat} (h : digitLimit ≤ n) :
    readTree room (lineOfOnes n) = .error (.oversized (.read (n + 1))) := by
  have hlong := Json.read_of_long room.depth (c := '1') (s := List.replicate n '1') (by decide)
    (by decide) (fun d hd => by rw [List.eq_of_mem_replicate hd]; rfl)
    (by simpa using Nat.lt_succ_of_le h)
  rw [← List.replicate_succ, List.length_replicate] at hlong
  simp only [readTree, Utf8.decode_of_encode (encode_ones n), hlong]

end Frame

/-- Any call for a message on such a line comes to a fault from outside the family. -/
theorem ReadCall.perform_lineOfOnes (room : Room) {call : ReadCall} (hcall : call ≠ .raw)
    (isOpen : Gate → Bool) {n : Nat} (h : digitLimit ≤ n) :
    call.perform room isOpen (Delivery.ofBytes (Frame.lineOfOnes n)) =
      some ⟨1, .error (.oversized (.read (n + 1))), []⟩ := by
  have hpull := (Frame.isLine_lineOfOnes n).pullMessage isOpen []
  rw [List.append_nil] at hpull
  rw [perform, pull_of_ne_raw hcall, hpull, Option.map_some]
  simp only [Except.mapError, Except.bind,
    ofLine_of_readTree_error hcall (Frame.readTree_lineOfOnes room h)]
  rfl

/-- Not every call for a message on a byte stream comes to a message or to a fault of the exchange
of lines. -/
theorem not_confined_to_framing :
    ¬ ∀ (call : ReadCall) (stream : Bytes) (isOpen : Gate → Bool), call ≠ .raw →
      ∃ outcome, call.perform .standard isOpen (Delivery.ofBytes stream) = some outcome ∧
        ∀ f, outcome.result = .error f → ∃ g, f = .frame g := by
  intro h
  obtain ⟨outcome, hperform, hconfined⟩ :=
    h .reply (Frame.lineOfOnes digitLimit) (fun _ => false) (by decide)
  rw [ReadCall.perform_lineOfOnes .standard (by decide) _ (Nat.le_refl _)] at hperform
  obtain rfl := Option.some.inj hperform
  obtain ⟨g, hg⟩ := hconfined _ rfl
  cases hg

end ParserClient
