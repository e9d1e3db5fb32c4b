import ParserClient.Proofs.Message.Issues
import ParserClient.Frame.Reading

/-!
# The lines that are replies

A line is a reply exactly if it holds an object in which the status is a text or nothing and the
errors are texts in an array or nothing, and there is room for its tree; a field that is absent
counts as nothing. The status is folded to lower case, and what stands in the place of the tree is
the tree of the reply as it has been read, whatever it is.

## Main definitions

* `Tree.Replies` — an object is a reply with a folded status, errors and a tree.

## Main results

* `Frame.readReply_eq_ok_iff` — the lines that are replies.
* `reply_accepted_iff` — the values of lines that are replies, and what the reply is.
-/

namespace ParserClient

/-! ### Objects that are replies -/

namespace Reply

/-- The folded status that a field gives. -/
inductive StatusOf : Option Tree → Text → Prop
  | absent : StatusOf none []
  | null : StatusOf (some .null) []
  | text (t : Text) : StatusOf (some (.text t)) t.lower

/-- The errors that a field gives. -/
inductive ErrorsOf : Option Tree → List Text → Prop
  | absent : ErrorsOf none []
  | null : ErrorsOf (some .null) []
  | array (errors : List Text) : ErrorsOf (some (.array (errors.map .text))) errors

theorem readStatus_toValue_iff {field : Option Tree} {status : Status} :
    readStatus (field.map Tree.toValue) = .ok status ↔
      ∃ t, StatusOf field t ∧ status = Status.ofText t := by
  constructor
  · intro h
    cases field with
    | none => exact ⟨[], .absent, (Except.ok.inj h).symm⟩
    | some v =>
      cases v with
      | null => exact ⟨[], .null, (Except.ok.inj h).symm⟩
      | text t => exact ⟨_, .text t, (Except.ok.inj h).symm⟩
      | _ => cases h
  · rintro ⟨t, hfield, rfl⟩
    cases hfield <;> rfl

theorem readErrorsFrom_toValue_iff {index : Nat} {items : List Tree} {errors : List Text} :
    readErrorsFrom index (Tree.itemsToValue items) = .ok errors ↔ items = errors.map .text := by
  induction items generalizing index errors with
  | nil => cases errors <;> simp [Tree.itemsToValue, readErrorsFrom]
  | cons v rest ih =>
    rw [Tree.itemsToValue, readErrorsFrom]
    cases hrest : readErrorsFrom (index + 1) (Tree.itemsToValue rest) with
    | error issues =>
      have hnone : ∀ ts : List Text, rest ≠ ts.map .text := fun ts hts => by
        rw [ih.mpr hts] at hrest
        cases hrest
      cases v <;> cases errors <;> simp [Tree.toValue, Value.asText, hnone]
    | ok ts =>
      obtain rfl := ih.mp hrest
      have hmap (us : List Text) : ts.map Tree.text = us.map .text ↔ ts = us :=
        List.map_inj_right fun _ _ => Tree.text.inj
      cases v <;> cases errors <;> simp [Tree.toValue, Value.asText, hmap]

theorem readErrors_toValue_iff {field : Option Tree} {errors : List Text} :
    readErrors (field.map Tree.toValue) = .ok errors ↔ ErrorsOf field errors := by
  constructor
  · intro h
    cases field with
    | none => exact Except.ok.inj h ▸ .absent
    | some v =>
      cases v with
      | null => exact Except.ok.inj h ▸ .null
      | array items => exact readErrorsFrom_toValue_iff.mp h ▸ .array errors
      | _ => cases h
  · intro h
    cases h with
    | absent => rfl
    | null => rfl
    | array => exact readErrorsFrom_toValue_iff.mpr rfl

theorem readTree_toValue (field : Option Tree) :
    readTree (field.map Tree.toValue) = .ok (field.getD .null) := by
  cases field with
  | none => rfl
  | some t =>
    rw [Option.map_some, readTree, Tree.ofValue_toValue]
    rfl

end Reply

/-- The tree is an object that is a reply with the folded status, the errors and a tree of its
own. -/
structure Tree.Replies (t : Tree) (status : Text) (errors : List Text) (tree : Tree) : Prop where
  object : ∃ fields, t = .object fields
  status : Reply.StatusOf (t.field? "status") status
  errors : Reply.ErrorsOf (t.field? "errors") errors
  tree : tree = (t.field? "ast").getD .null

namespace Reply

/-- A tree is read as a reply exactly if it is one. -/
theorem ofValue_toValue_iff {t : Tree} {reply : Reply} :
    ofValue t.toValue = .ok reply ↔
      ∃ status, t.Replies status reply.errors reply.tree ∧
        reply.status = Status.ofText status := by
  by_cases hobject : ∃ fields, t = .object fields
  · obtain ⟨fields, rfl⟩ := hobject
    simp only [Tree.toValue, ofValue, Tree.get?_fieldsToValue, readTree_toValue]
    constructor
    · intro h
      split at h
      · next status errors tree hstatus herrors htree =>
        obtain rfl := Except.ok.inj h
        obtain ⟨text, hfield, rfl⟩ := readStatus_toValue_iff.mp hstatus
        exact ⟨text, ⟨⟨fields, rfl⟩, hfield, readErrors_toValue_iff.mp herrors,
          (Except.ok.inj htree).symm⟩, rfl⟩
      · cases h
    · rintro ⟨text, ⟨-, hstatus, herrors, htree⟩, hreply⟩
      rw [readStatus_toValue_iff.mpr ⟨text, hstatus, rfl⟩, readErrors_toValue_iff.mpr herrors,
        ← htree, ← hreply]
  · constructor
    · intro h
      cases t with
      | object fields => exact absurd ⟨fields, rfl⟩ hobject
      | _ => cases h
    · rintro ⟨_, hreplies, -⟩
      exact absurd hreplies.object hobject

end Reply

namespace Frame

variable {room : Room} {line : Bytes} {t : Tree} {reply : Reply}

/-- Where there is room for the tree, a line is a reply exactly if its value is one. -/
theorem readReply_eq_ok_iff_ofValue (h : readTree room line = .ok t) (hroom : room.holds t = true) :
    readReply room line = .ok reply ↔ Reply.ofValue t.toValue = .ok reply := by
  simp only [readReply, readAs, h, hroom, ↓reduceIte, ofTree, mapError_eq_ok_iff]

/-- A line is a reply exactly if it holds an object that is one, and there is room for its tree. -/
theorem readReply_eq_ok_iff :
    readReply room line = .ok reply ↔
      ∃ t status, readTree room line = .ok t ∧ room.holds t = true ∧
        t.Replies status reply.errors reply.tree ∧ reply.status = Status.ofText status := by
  constructor
  · intro h
    cases hread : readTree room line with
    | error f =>
      rw [readReply, readAs, hread] at h
      cases h
    | ok t =>
      cases hroom : room.holds t with
      | false => simp [readReply, readAs, hread, hroom] at h
      | true =>
        obtain ⟨status, hreplies, hstatus⟩ :=
          Reply.ofValue_toValue_iff.mp ((readReply_eq_ok_iff_ofValue hread hroom).mp h)
        exact ⟨t, status, rfl, hroom, hreplies, hstatus⟩
  · rintro ⟨t, status, hread, hroom, hreplies, hstatus⟩
    exact (readReply_eq_ok_iff_ofValue hread hroom).mpr
      (Reply.ofValue_toValue_iff.mpr ⟨status, hreplies, hstatus⟩)

end Frame

/-! ### What makes a value a reply -/

theorem Status.isKnown_ofText {t : Text} :
    (ofText t).isKnown = true ↔
      t = Text.ofString "ok" ∨ t = Text.ofString "error" ∨ t = Text.ofString "fatal" := by
  unfold ofText
  split
  · next h => exact iff_of_true rfl (.inl h)
  split
  · next h => exact iff_of_true rfl (.inr (.inl h))
  split
  · next h => exact iff_of_true rfl (.inr (.inr h))
  · next hok herror hfatal => simp [isKnown, hok, herror, hfatal]

/-- The value of a line is a reply exactly if it is an object with a status that is absent, nothing
or a text, and errors that are absent, nothing or an array of texts: no other field counts, the tree
neither. The reply has the folded status, which is known if it is one of three, the errors as they
are, and what stands in the place of the tree. The line is read as the reply that its value is, if
there is room for the tree. -/
theorem reply_accepted_iff {room : Room} {line : Bytes} {t : Tree}
    (h : Frame.readTree room line = .ok t) :
    (room.holds t = true →
      ∀ reply, Frame.readReply room line = .ok reply ↔ Reply.ofValue t.toValue = .ok reply) ∧
    ((∃ reply, Reply.ofValue t.toValue = .ok reply) ↔
      (∃ fields, t = .object fields) ∧ (∃ status, Reply.StatusOf (t.field? "status") status) ∧
        ∃ errors, Reply.ErrorsOf (t.field? "errors") errors) ∧
    ∀ reply, Reply.ofValue t.toValue = .ok reply →
      Reply.StatusOf (t.field? "status") reply.status.name ∧
      (reply.status.isKnown = true ↔ reply.status.name = Text.ofString "ok" ∨
        reply.status.name = Text.ofString "error" ∨ reply.status.name = Text.ofString "fatal") ∧
      Reply.ErrorsOf (t.field? "errors") reply.errors ∧
      reply.tree = (t.field? "ast").getD .null := by
  refine ⟨fun hroom reply => Frame.readReply_eq_ok_iff_ofValue h hroom, ⟨?_, ?_⟩,
    fun reply hreply => ?_⟩
  · rintro ⟨reply, hreply⟩
    obtain ⟨status, hreplies, -⟩ := Reply.ofValue_toValue_iff.mp hreply
    exact ⟨hreplies.object, ⟨status, hreplies.status⟩, reply.errors, hreplies.errors⟩
  · rintro ⟨hobject, ⟨status, hstatus⟩, errors, herrors⟩
    exact ⟨⟨Status.ofText status, errors, (t.field? "ast").getD .null⟩,
      Reply.ofValue_toValue_iff.mpr ⟨status, ⟨hobject, hstatus, herrors, rfl⟩, rfl⟩⟩
  · obtain ⟨status, hreplies, hname⟩ := Reply.ofValue_toValue_iff.mp hreply
    rw [hname, Status.name_ofText]
    exact ⟨hreplies.status, Status.isKnown_ofText, hreplies.errors, hreplies.tree⟩

/-- An object with a status in capitals that ends with one half of a surrogate pair, and the other
half for an error. -/
def Frame.loneLine : Bytes :=
  [123, 34, 115, 116, 97, 116, 117, 115, 34, 58, 34, 79, 75, 92, 117, 100, 56, 48, 48, 34, 44, 34,
    101, 114, 114, 111, 114, 115, 34, 58, 91, 34, 92, 117, 100, 99, 48, 48, 34, 93, 125, 10]

/-- The tree of this line. -/
def Tree.ofLoneLine : Tree :=
  .object [("status", .text [.scalar 'O', .scalar 'K', .ofNat 0xD800]),
    ("errors", .array [.text [.ofNat 0xDC00]])]

theorem lone_halves_accepted :
    Frame.readTree .standard Frame.loneLine = .ok .ofLoneLine ∧
    ∃ reply, Frame.readReply .standard Frame.loneLine = .ok reply ∧
      reply.status.name = [.scalar 'o', .scalar 'k', .ofNat 0xD800] ∧
      reply.status.isKnown = false ∧ reply.errors = [[.ofNat 0xDC00]] ∧ reply.tree = .null := by
  have hread : Frame.readTree .standard Frame.loneLine = .ok .ofLoneLine := rfl
  obtain ⟨hsame, hvalid, hreply⟩ := reply_accepted_iff hread
  obtain ⟨reply, h⟩ := hvalid.mpr ⟨⟨_, rfl⟩, ⟨_, .text _⟩, _, .array [[.ofNat 0xDC00]]⟩
  obtain ⟨hstatus, hknown, herrors, htree⟩ := hreply reply h
  have hname : reply.status.name = [.scalar 'o', .scalar 'k', .ofNat 0xD800] := by
    generalize reply.status.name = name at hstatus
    cases hstatus
    decide +kernel
  have hunknown : reply.status.isKnown = false := by
    rw [Bool.eq_false_iff, Ne, hknown, hname]
    decide
  have hlone : reply.errors = [[.ofNat 0xDC00]] :=
    (Except.ok.inj (Reply.readErrors_toValue_iff.mpr herrors)).symm
  exact ⟨hread, reply, (hsame rfl reply).mpr h, hname, hunknown, hlone, htree⟩

/-- Neither the status nor the errors of a reply need hold characters only. -/
theorem not_only_characters :
    (¬ ∀ (line : Bytes) (t : Tree), Frame.readTree .standard line = .ok t →
      (∃ reply, Reply.ofValue t.toValue = .ok reply) →
        ∀ s, t.field? "status" = some (.text s) → s.Scalar) ∧
    ¬ ∀ (line : Bytes) (t : Tree), Frame.readTree .standard line = .ok t →
      (∃ reply, Reply.ofValue t.toValue = .ok reply) →
        ∀ errors, Reply.ErrorsOf (t.field? "errors") errors → ∀ e ∈ errors, e.Scalar := by
  have hread : Frame.readTree .standard Frame.loneLine = .ok .ofLoneLine := rfl
  have hreply : ∃ reply, Reply.ofValue Tree.ofLoneLine.toValue = .ok reply := ⟨_, rfl⟩
  constructor
  · intro h
    exact absurd (h _ _ hread hreply [.scalar 'O', .scalar 'K', .ofNat 0xD800] rfl)
      (by decide)
  · intro h
    exact absurd (h _ _ hread hreply _ (.array [[.ofNat 0xDC00]]) _ List.mem_cons_self) (by decide)

end ParserClient
