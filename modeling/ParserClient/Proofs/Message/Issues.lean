import ParserClient.Message.Reply
import ParserClient.Message.Request
import ParserClient.Message.Settings
import ParserClient.Proofs.ContentEncoding
import ParserClient.Proofs.Value.Printing

/-!
# Issues whose wording has no bytes

An issue is worded by a fixed sentence, or by one that quotes what stands in the value. A value that
is read from a line is a tree, and of what a message can ask of a tree only the encoding of settings
quotes a text as it stands. So the issues of a reply or a request can all be reported; those of
settings can be, unless the tag of the encoding holds a lone half.

## Main definitions

* `Want.IsFixed` — a want with a wording of its own.

## Main results

* `Tree.ofValue_toValue` — a tree is read back from the value that it is.
* `Reply.isFixed_of_issue`, `Request.isFixed_of_issue` — the issues of replies and requests.
* `Settings.findSome?_unencodable` — the issues of settings.
-/

namespace ParserClient

/-! ### Trees as values -/

namespace Tree

mutual

/-- A tree is read back from the value that it is. -/
theorem ofValue_toValue (t : Tree) : ofValue t.toValue = .ok t := by
  cases t with
  | null | bool | int | float | text => rfl
  | array items =>
    rw [toValue, ofValue, ofItems_itemsToValue]
    rfl
  | object fields =>
    rw [toValue, ofValue, ofEntries_fieldsToValue]
    rfl

theorem ofItems_itemsToValue (items : List Tree) : ofItems (itemsToValue items) = .ok items := by
  cases items with
  | nil => rfl
  | cons t rest =>
    rw [itemsToValue, ofItems, ofValue_toValue, ofItems_itemsToValue]
    rfl

theorem ofEntries_fieldsToValue (fields : List (Text × Tree)) :
    ofEntries (fieldsToValue fields) = .ok fields := by
  cases fields with
  | nil => rfl
  | cons f rest =>
    obtain ⟨k, t⟩ := f
    rw [fieldsToValue, ofEntries, ofValue_toValue, ofEntries_fieldsToValue]
    rfl

end

theorem get?_fieldsToValue (fields : List (Text × Tree)) (name : Text) :
    Entries.get? (fieldsToValue fields) name = (field? (.object fields) name).map toValue := by
  induction fields with
  | nil => rfl
  | cons f rest ih =>
    obtain ⟨k, t⟩ := f
    by_cases h : k = name
    · simp [Entries.get?, field?, fieldsToValue, Value.sameKey, h]
    · simpa [Entries.get?, field?, fieldsToValue, Value.sameKey, h] using ih

/-- The value of a tree is a text only if the tree is one. -/
theorem toValue_eq_text {t : Tree} {s : Text} : t.toValue = .text s ↔ t = .text s := by
  cases t <;> simp [toValue]

end Tree

/-! ### Wording -/

/-- The wording quotes nothing. -/
def Want.IsFixed : Want → Prop
  | .other _ => False
  | _ => True

theorem Issue.unencodable?_of_isFixed {i : Issue} (h : i.want.IsFixed) : i.unencodable? = none := by
  obtain ⟨place, want⟩ := i
  cases want with
  | other wording => exact h.elim
  | _ => rfl

theorem Issue.unencodable?_eq_some {place : List PathStep} {wording : Text}
    {cause : Utf8.Unencodable} :
    unencodable? ⟨place, .other wording⟩ = some cause ↔ Utf8.encode wording = .error cause := by
  cases hencode : Utf8.encode wording <;> simp [unencodable?, hencode]

theorem Value.isFixed_of_asText {v : Value} {want : Want} (h : v.asText = .error want) :
    want.IsFixed := by
  cases v with
  | text t => cases h
  | bytes b =>
    rw [asText] at h
    cases hdecode : Utf8.decode b with
    | ok t => simp [hdecode, Except.mapError] at h
    | error f =>
      rw [hdecode] at h
      cases h
      trivial
  | _ =>
    cases h
    trivial

/-- An issue with what stands in one place. -/
theorem exists_of_mem_issuesIn {α : Type} {r : Except Want α} {place : List PathStep} {i : Issue}
    (h : i ∈ issuesIn (r.mapError fun want => [⟨place, want⟩])) :
    ∃ want, r = .error want ∧ i = ⟨place, want⟩ := by
  cases r with
  | ok a => cases h
  | error want => exact ⟨want, rfl, List.mem_singleton.mp h⟩

/-! ### Replies -/

namespace Reply

variable {i : Issue}

theorem isFixed_readStatus {v : Option Value} (h : i ∈ issuesIn (readStatus v)) :
    i.want.IsFixed := by
  unfold readStatus at h
  split at h
  · cases h
  · cases h
  · cases h
  · split at h
    · cases h
    · next htext =>
      simp only [issuesIn, List.mem_cons, List.not_mem_nil, or_false] at h
      rcases h with rfl | rfl
      · trivial
      · exact Value.isFixed_of_asText htext

theorem isFixed_readErrorsFrom {index : Nat} {items : List Value}
    (h : i ∈ issuesIn (readErrorsFrom index items)) : i.want.IsFixed := by
  induction items generalizing index with
  | nil => cases h
  | cons v rest ih =>
    unfold readErrorsFrom at h
    split at h
    · cases h
    · next hrest => exact ih (by rwa [hrest])
    · next htext _ =>
      obtain rfl := List.mem_singleton.mp h
      exact Value.isFixed_of_asText htext
    · next htext hrest =>
      rcases List.mem_cons.mp h with rfl | h
      · exact Value.isFixed_of_asText htext
      · exact ih (by rwa [hrest])

theorem isFixed_readErrors {v : Option Value} (h : i ∈ issuesIn (readErrors v)) :
    i.want.IsFixed := by
  unfold readErrors at h
  split at h
  · cases h
  · cases h
  · exact isFixed_readErrorsFrom h
  · exact isFixed_readErrorsFrom h
  · exact isFixed_readErrorsFrom h
  · obtain rfl := List.mem_singleton.mp h
    trivial

/-- The tree of a reply that is a tree can always be taken. -/
theorem issuesIn_readTree (t : Option Tree) : issuesIn (readTree (t.map Tree.toValue)) = [] := by
  cases t with
  | none => rfl
  | some t =>
    rw [Option.map_some, readTree, Tree.ofValue_toValue]
    rfl

theorem issuesIn_ofValue (entries : Entries) :
    issuesIn (ofValue (.mapping entries)) =
      issuesIn (readStatus (Entries.get? entries "status")) ++
        issuesIn (readErrors (Entries.get? entries "errors")) ++
        issuesIn (readTree (Entries.get? entries "ast")) := by
  simp only [ofValue]
  split
  · next hstatus herrors htree => rw [hstatus, herrors, htree]; rfl
  · rfl

/-- The issues of a reply are worded by fixed sentences. -/
theorem isFixed_of_issue {t : Tree} (h : i ∈ issuesIn (ofValue t.toValue)) : i.want.IsFixed := by
  cases t with
  | object fields =>
    rw [Tree.toValue, issuesIn_ofValue, Tree.get?_fieldsToValue _ "ast", issuesIn_readTree,
      List.append_nil] at h
    rcases List.mem_append.mp h with h | h
    · exact isFixed_readStatus h
    · exact isFixed_readErrors h
  | _ =>
    obtain rfl := List.mem_singleton.mp h
    trivial

end Reply

/-! ### Requests -/

namespace Request

variable {i : Issue}

theorem isFixed_readContent {v : Option Value} (h : i ∈ issuesIn (readContent v)) :
    i.want.IsFixed := by
  cases v with
  | none =>
    obtain rfl := List.mem_singleton.mp h
    trivial
  | some v =>
    obtain ⟨want, htext, rfl⟩ := exists_of_mem_issuesIn h
    exact Value.isFixed_of_asText htext

theorem isFixed_exactEncoding {v : Value} {want : Want} (h : exactEncoding v = .error want) :
    want.IsFixed := by
  unfold exactEncoding at h
  repeat' split at h
  all_goals cases h
  all_goals trivial

theorem isFixed_readEncoding {wire other : Option Value}
    (h : i ∈ issuesIn (readEncoding wire other)) : i.want.IsFixed := by
  unfold readEncoding at h
  split at h
  · obtain ⟨want, hwant, rfl⟩ := exists_of_mem_issuesIn h
    exact isFixed_exactEncoding hwant
  · obtain ⟨want, hwant, rfl⟩ := exists_of_mem_issuesIn h
    exact isFixed_exactEncoding hwant
  · obtain rfl := List.mem_singleton.mp h
    trivial

/-- The issues of a request are worded by fixed sentences. -/
theorem isFixed_of_issue {v : Value} (h : i ∈ issuesIn (ofValue v)) : i.want.IsFixed := by
  cases v with
  | mapping entries =>
    simp only [ofValue] at h
    split at h
    · cases h
    · rcases List.mem_append.mp h with h | h
      · exact isFixed_readContent h
      · exact isFixed_readEncoding h
  | _ =>
    obtain rfl := List.mem_singleton.mp h
    trivial

end Request

/-! ### Settings -/

/-- A tag with a lone half names no encoding. -/
theorem ContentEncoding.scalar_of_spells {tag : Text} {e : ContentEncoding}
    (h : tag.Spells e.name) : tag.Scalar :=
  h.scalar (by cases e <;> decide)

theorem Oversized.scalar_message (o : Oversized) : o.message.Scalar := by
  cases o with
  | written => exact (Text.scalar_ofString _).append (Text.scalar_ofString _)
  | read digits =>
    exact ((Text.scalar_ofString _).append (Text.scalar_ofString _)).append (Text.scalar_ofString _)

/-- Only a tag that is a text can be refused in words without bytes. -/
theorem ContentEncoding.scalar_message {v : Value} {fault : TagFault}
    (hv : ∀ s, v ≠ .text s) (h : ofValue v = .error fault) : fault.message.Scalar := by
  unfold ofValue at h
  split at h
  · next o _ =>
    cases h
    exact o.scalar_message
  · next shown hshown =>
    split at h
    · cases h
    · cases h
      exact (Text.scalar_ofString _).append (Value.scalar_shown hv hshown)

namespace Settings

variable {i : Issue}

theorem isFixed_readBinary {v : Option Value} (h : i ∈ issuesIn (readBinary v)) :
    i.want.IsFixed := by
  unfold readBinary at h
  split at h
  · cases h
  · cases h
  · cases h
  · obtain ⟨want, htext, rfl⟩ := exists_of_mem_issuesIn h
    exact Value.isFixed_of_asText htext

theorem isFixed_readNumeral {t : Text} {want : Want} (h : readNumeral number? t = .error want) :
    want.IsFixed := by
  unfold readNumeral at h
  split at h <;> cases h
  split <;> trivial

theorem isFixed_readNumber {v : Value} {want : Want} (h : readNumber number? v = .error want) :
    want.IsFixed := by
  unfold readNumber at h
  repeat' split at h
  all_goals first | exact isFixed_readNumeral h | cases h
  all_goals trivial

theorem isFixed_readPositive {v : Value} {want : Want} (h : readPositive number? v = .error want) :
    want.IsFixed := by
  unfold readPositive at h
  split at h
  · next hnumber =>
    cases h
    exact isFixed_readNumber hnumber
  · split at h <;> cases h
    trivial

theorem isFixed_readDeadline {v : Option Value} (h : i ∈ issuesIn (readDeadline number? v)) :
    i.want.IsFixed := by
  rcases v with - | v
  · cases h
  cases hpositive : readPositive number? v with
  | ok x =>
    have hnone (blank : Bool) : i ∉ issuesIn (if blank then .ok none else .ok (some x)) := by
      cases blank <;> exact nofun
    cases v with
    | null => cases h
    | text t => exact absurd h (by simpa only [readDeadline, hpositive] using hnone t.isBlank)
    | _ => exact absurd h (by simpa only [readDeadline, hpositive] using hnone false)
  | error want =>
    have hfixed (blank : Bool) (hmem : i ∈ issuesIn (α := Option Double) (if blank then .ok none
        else .error [⟨[.field "timeout_seconds"], want⟩])) : i.want.IsFixed := by
      cases blank with
      | true => cases hmem
      | false =>
        obtain rfl := List.mem_singleton.mp hmem
        exact isFixed_readPositive hpositive
    cases v with
    | null => cases h
    | text t => exact hfixed t.isBlank (by simpa only [readDeadline, hpositive] using h)
    | _ => exact hfixed false (by simpa only [readDeadline, hpositive] using h)

/-- The words in which a tag is refused. -/
def refusal (tag : Text) : Text := "invalid Encoding: " ++ tag

theorem readEncoding_of_lone {tag : Text} (h : ¬ tag.Scalar) :
    readEncoding (some (.text tag)) = .error [⟨[.field "encoding"], .other (refusal tag)⟩] := by
  have hne : tag ≠ [] := by
    rintro rfl
    exact h Text.scalar_nil
  have htag : ContentEncoding.ofValue (.text tag) = .error (.unknown (.text tag) tag) :=
    ContentEncoding.ofValue_of_not_spells fun _ hspells =>
      h (ContentEncoding.scalar_of_spells hspells)
  rw [readEncoding, htag]
  · rfl
  · simp
  · simpa using hne

/-- An issue with the encoding is a tag refused. -/
theorem exists_of_mem_readEncoding {v : Value} (h : i ∈ issuesIn (readEncoding (some v))) :
    ∃ fault, ContentEncoding.ofValue v = .error fault ∧
      i = ⟨[.field "encoding"], .other fault.message⟩ := by
  unfold readEncoding at h
  split at h
  · cases h
  · cases h
  · cases h
  · next w _ _ hw =>
    obtain rfl := Option.some.inj hw
    cases hfault : ContentEncoding.ofValue v with
    | ok e => simp [hfault, Except.mapError, issuesIn] at h
    | error fault => exact ⟨fault, rfl, by simpa [hfault, Except.mapError, issuesIn] using h⟩

theorem exists_of_unencodable {t : Option Tree} {cause : Utf8.Unencodable}
    (h : i ∈ issuesIn (readEncoding (t.map Tree.toValue))) (hi : i.unencodable? = some cause) :
    ∃ tag, t = some (.text tag) ∧ Utf8.encode (refusal tag) = .error cause := by
  rcases t with - | t
  · cases h
  obtain ⟨fault, hfault, rfl⟩ := exists_of_mem_readEncoding h
  have hcause : Utf8.encode fault.message = .error cause := Issue.unencodable?_eq_some.mp hi
  by_cases htext : ∃ tag, t.toValue = .text tag
  · obtain ⟨tag, htag⟩ := htext
    refine ⟨tag, congrArg some (Tree.toValue_eq_text.mp htag), ?_⟩
    rw [htag] at hfault
    obtain ⟨rfl, -⟩ := ContentEncoding.ofValue_text_eq_error_iff.mp hfault
    exact hcause
  · have hscalar := ContentEncoding.scalar_message (fun s hs => htext ⟨s, hs⟩) hfault
    obtain ⟨bytes, hbytes⟩ := Utf8.encode_of_scalar hscalar
    rw [hbytes] at hcause
    cases hcause

theorem issuesIn_ofFields (number? : Text → Option Double)
    (binary encoding deadline : Option Value) :
    issuesIn (ofFields number? binary encoding deadline) =
      issuesIn (readBinary binary) ++ issuesIn (readEncoding encoding) ++
        issuesIn (readDeadline number? deadline) := by
  simp only [ofFields]
  split
  · next hbinary hencoding hdeadline => rw [hbinary, hencoding, hdeadline]; rfl
  · rfl

/-- Only the encoding can keep the issues of settings from being reported. -/
theorem findSome?_ofFields (number? : Text → Option Double)
    (binary encoding deadline : Option Value) :
    (issuesIn (ofFields number? binary encoding deadline)).findSome? Issue.unencodable? =
      (issuesIn (readEncoding encoding)).findSome? Issue.unencodable? := by
  have hbinary : (issuesIn (readBinary binary)).findSome? Issue.unencodable? = none :=
    List.findSome?_eq_none_iff.mpr fun _ hi =>
      Issue.unencodable?_of_isFixed (isFixed_readBinary hi)
  have hdeadline : (issuesIn (readDeadline number? deadline)).findSome? Issue.unencodable? = none :=
    List.findSome?_eq_none_iff.mpr fun _ hi =>
      Issue.unencodable?_of_isFixed (isFixed_readDeadline hi)
  rw [issuesIn_ofFields, List.findSome?_append, List.findSome?_append, hbinary, hdeadline,
    Option.or_none, Option.none_or]

/-- The issues of settings can be reported, unless the tag of the encoding is a text without
bytes. -/
theorem findSome?_unencodable {t : Tree} {cause : Utf8.Unencodable} :
    (issuesIn (ofValue t.toValue)).findSome? Issue.unencodable? = some cause ↔
      ∃ tag, t.field? "encoding" = some (.text tag) ∧
        Utf8.encode (refusal tag) = .error cause := by
  cases t with
  | object fields =>
    rw [Tree.toValue, ofValue, findSome?_ofFields, Tree.get?_fieldsToValue]
    constructor
    · intro h
      obtain ⟨i, hmem, hi⟩ := List.exists_of_findSome?_eq_some h
      exact exists_of_unencodable hmem hi
    · rintro ⟨tag, hfield, hcause⟩
      have hlone : ¬ tag.Scalar := fun hscalar => by
        obtain ⟨bytes, hbytes⟩ :=
          Utf8.encode_of_scalar ((Text.scalar_ofString "invalid Encoding: ").append hscalar)
        rw [refusal, hbytes] at hcause
        cases hcause
      rw [hfield, Option.map_some, Tree.toValue, readEncoding_of_lone hlone, issuesIn,
        List.findSome?_cons, Issue.unencodable?_eq_some.mpr hcause]
  | _ => simp [Tree.toValue, ofValue, issuesIn, Tree.field?, Issue.unencodable?]

end Settings

end ParserClient
