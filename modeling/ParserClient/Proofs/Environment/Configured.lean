import ParserClient.Environment
import ParserClient.Proofs.Message.Issues
import ParserClient.Proofs.Session.Tagged

/-!
# What an environment configures

A client is configured with three texts, each of which may be missing. A blank command and a blank
deadline count as missing, and so does an empty tag; a blank tag does not. Only the tag and the
deadline can be refused: a command is any text, lone halves included, and whether there is such a
command is seen when it is run. What is not refused is what the client has, for what the settings
say is never empty, and an empty command or tag is all that the client itself gives way on.

A session of such a client has the name of an encoding for a tag until another one is assigned, so
no request fails for the tag.

How a number is read off a text is not fixed here: all of this holds for any partial function from
texts to numbers.

Settings that are refused can be reported, unless the tag of the encoding holds a lone half: the
report quotes the tag.

## Main definitions

* `Settings.BinaryOf`, `Settings.EncodingOf`, `Settings.DeadlineOf` — what a text gives.
* `Settings.RefusesTag`, `Settings.RefusesDeadline` — the texts that give nothing.
* `Environment.Refuses`, `Environment.Configures` — what an environment comes to.

## Main results

* `Settings.ofFields_of_texts` — three texts are settings, or one issue names each that is refused.
* `Environment.settings_cases` — an environment gives settings, or names what it refuses.
* `environment_configures` — when there is a client, and what it is and does.
-/

namespace ParserClient

/-! ### Fields -/

namespace Settings

/-- The command that a text gives; a blank one gives way to the standard command. -/
inductive BinaryOf : Option Text → Text → Prop
  | unset : BinaryOf none standardBinary
  | blank {t : Text} (h : t.isBlank = true) : BinaryOf (some t) standardBinary
  | given {t : Text} (h : t.isBlank = false) : BinaryOf (some t) t

/-- The encoding that a text gives; only an empty one gives way to the standard encoding. -/
inductive EncodingOf : Option Text → ContentEncoding → Prop
  | unset : EncodingOf none .standard
  | empty : EncodingOf (some []) .standard
  | tag {t : Text} {e : ContentEncoding} (h : t.Spells e.name) : EncodingOf (some t) e

/-- The deadline that a text gives: none if the text is blank, else the number that it is read as,
which is greater than zero. -/
inductive DeadlineOf (number? : Text → Option Double) : Option Text → Option Double → Prop
  | unset : DeadlineOf number? none none
  | blank {t : Text} (h : t.isBlank = true) : DeadlineOf number? (some t) none
  | number {t : Text} {x : Double} (h : t.isBlank = false) (hnumber : number? t = some x)
      (hpositive : x.isPositive = true) : DeadlineOf number? (some t) (some x)

/-- The text is no tag: it is not empty, and spells the name of no encoding. -/
def RefusesTag (text : Option Text) : Prop :=
  ∃ t, text = some t ∧ t ≠ [] ∧ ∀ e : ContentEncoding, ¬ t.Spells e.name

/-- The text is no deadline: it is not blank, and not read as a number greater than zero. -/
def RefusesDeadline (number? : Text → Option Double) (text : Option Text) : Prop :=
  ∃ t, text = some t ∧ t.isBlank = false ∧ ∀ x, number? t = some x → x.isPositive = false

theorem not_refusesTag_none : ¬ RefusesTag none := by
  simp [RefusesTag]

theorem refusesTag_some_iff {t : Text} :
    RefusesTag (some t) ↔ t ≠ [] ∧ ∀ e : ContentEncoding, ¬ t.Spells e.name := by
  simp [RefusesTag]

theorem not_refusesDeadline_none {number? : Text → Option Double} :
    ¬ RefusesDeadline number? none := by
  simp [RefusesDeadline]

theorem refusesDeadline_some_iff {number? : Text → Option Double} {t : Text} :
    RefusesDeadline number? (some t) ↔
      t.isBlank = false ∧ ∀ x, number? t = some x → x.isPositive = false := by
  simp [RefusesDeadline]

/-- What is read of a field is what its text gives, or the text is refused and one issue names the
field. -/
inductive Reads {α : Type} (field : Text) (Gives : α → Prop) (Refused : Prop) :
    Except (List Issue) α → Prop
  | given {a : α} (h : Gives a) (hnot : ¬ Refused) : Reads field Gives Refused (.ok a)
  | refused (want : Want) (h : Refused) :
      Reads field Gives Refused (.error [⟨[.field field], want⟩])

theorem readPositive_text_eq_ok_iff {number? : Text → Option Double} {t : Text} {x : Double} :
    readPositive number? (.text t) = .ok x ↔ number? t = some x ∧ x.isPositive = true := by
  simp only [readPositive, readNumber, readNumeral]
  cases number? t with
  | none => exact iff_of_false nofun fun h => nomatch h.1
  | some y =>
    by_cases hpositive : y.isPositive = true
    · simp only [hpositive, ↓reduceIte, Except.ok.injEq, Option.some.injEq]
      exact ⟨fun h => ⟨h, h ▸ hpositive⟩, fun h => h.1⟩
    · simp only [hpositive, Bool.false_eq_true, ↓reduceIte, reduceCtorEq, Option.some.injEq,
        false_iff]
      rintro ⟨rfl, h⟩
      exact hpositive h

section Texts

variable (number? : Text → Option Double) (text : Option Text)

theorem readBinary_text :
    Reads "binary" (BinaryOf text) False (readBinary (text.map .text)) := by
  cases text with
  | none => exact .given .unset id
  | some t =>
    rw [Option.map_some, readBinary]
    cases hblank : t.isBlank with
    | true => exact .given (.blank hblank) id
    | false => exact .given (.given hblank) id

theorem readEncoding_text :
    Reads "encoding" (EncodingOf text) (RefusesTag text) (readEncoding (text.map .text)) := by
  cases text with
  | none => exact .given .unset not_refusesTag_none
  | some t =>
    by_cases hempty : t = []
    · subst hempty
      exact .given .empty fun h => (refusesTag_some_iff.mp h).1 rfl
    · have hread : readEncoding (some (.text t)) = (ContentEncoding.ofValue (.text t)).mapError
          fun fault => [⟨[.field "encoding"], .other fault.message⟩] := by
        rw [readEncoding] <;> simp [hempty]
      rw [Option.map_some, hread]
      by_cases hname : ∃ e : ContentEncoding, t.Spells e.name
      · obtain ⟨e, he⟩ := hname
        rw [ContentEncoding.ofValue_of_spells he]
        exact .given (.tag he) fun h => (refusesTag_some_iff.mp h).2 e he
      · have hnone := not_exists.mp hname
        rw [ContentEncoding.ofValue_of_not_spells hnone]
        exact .refused _ (refusesTag_some_iff.mpr ⟨hempty, hnone⟩)

theorem readDeadline_text :
    Reads "timeout_seconds" (DeadlineOf number? text) (RefusesDeadline number? text)
      (readDeadline number? (text.map .text)) := by
  cases text with
  | none => exact .given .unset not_refusesDeadline_none
  | some t =>
    rw [Option.map_some, readDeadline.eq_def]
    by_cases hblank : t.isBlank = true
    · simp only [hblank]
      refine .given (.blank hblank) fun h => ?_
      rw [(refusesDeadline_some_iff.mp h).1] at hblank
      cases hblank
    · simp only [hblank]
      rw [Bool.not_eq_true] at hblank
      cases hread : readPositive number? (.text t) with
      | ok x =>
        obtain ⟨hnumber, hpositive⟩ := readPositive_text_eq_ok_iff.mp hread
        refine .given (.number hblank hnumber hpositive) fun h => ?_
        rw [(refusesDeadline_some_iff.mp h).2 x hnumber] at hpositive
        cases hpositive
      | error want =>
        refine .refused want (refusesDeadline_some_iff.mpr ⟨hblank, fun x hnumber => ?_⟩)
        by_contra hpositive
        rw [Bool.not_eq_false] at hpositive
        rw [readPositive_text_eq_ok_iff.mpr ⟨hnumber, hpositive⟩] at hread
        cases hread

end Texts

/-- The issues name the fields that are refused, each once and in order, and no others. -/
structure Objects (number? : Text → Option Double) (tag deadline : Option Text)
    (issues : List Issue) : Prop where
  places : (issues.map Issue.place).Sublist [[.field "encoding"], [.field "timeout_seconds"]]
  tag : [.field "encoding"] ∈ issues.map Issue.place ↔ RefusesTag tag
  deadline : [.field "timeout_seconds"] ∈ issues.map Issue.place ↔
    RefusesDeadline number? deadline

/-- The issues of three texts can be reported if there is no lone half in the tag. -/
theorem findSome?_of_scalar {number? : Text → Option Double} {binary tag deadline : Option Text}
    (htag : ∀ t, tag = some t → t.Scalar) :
    (issuesIn (ofFields number? (binary.map .text) (tag.map .text)
      (deadline.map .text))).findSome? Issue.unencodable? = none := by
  rw [findSome?_ofFields]
  refine List.findSome?_eq_none_iff.mpr fun i hi => ?_
  cases tag with
  | none => cases hi
  | some t =>
    obtain ⟨fault, hfault, rfl⟩ := exists_of_mem_readEncoding hi
    obtain ⟨rfl, -⟩ := ContentEncoding.ofValue_text_eq_error_iff.mp hfault
    obtain ⟨bytes, hbytes⟩ :=
      Utf8.encode_of_scalar ((Text.scalar_ofString "invalid Encoding: ").append (htag t rfl))
    simp only [TagFault.message, Issue.unencodable?, hbytes]

/-- Three texts are settings, or what is refused of them is named. -/
theorem ofFields_of_texts (number? : Text → Option Double) (binary tag deadline : Option Text) :
    (∃ s, ofFields number? (binary.map .text) (tag.map .text) (deadline.map .text) = .ok s ∧
      BinaryOf binary s.binary ∧ EncodingOf tag s.encoding ∧
        DeadlineOf number? deadline s.deadline ∧
        ¬ (RefusesTag tag ∨ RefusesDeadline number? deadline)) ∨
    ∃ issues,
      ofFields number? (binary.map .text) (tag.map .text) (deadline.map .text) = .error issues ∧
      (RefusesTag tag ∨ RefusesDeadline number? deadline) ∧
        Objects number? tag deadline issues := by
  have hbinary := readBinary_text binary
  have htag := readEncoding_text tag
  have hdeadline := readDeadline_text number? deadline
  simp only [ofFields]
  generalize readBinary (binary.map .text) = b at hbinary
  generalize readEncoding (tag.map .text) = e at htag
  generalize readDeadline number? (deadline.map .text) = d at hdeadline
  have hfields : ([.field "encoding"] : List PathStep) ≠ [.field "timeout_seconds"] := by decide
  -- no command is refused, so the tag and the deadline decide
  cases hbinary with
  | refused _ hnever => exact hnever.elim
  | given hb _ =>
    cases htag with
    | given he hnotTag =>
      cases hdeadline with
      | given hd hnotDeadline =>
        exact .inl ⟨_, rfl, hb, he, hd, not_or.mpr ⟨hnotTag, hnotDeadline⟩⟩
      | refused want hd =>
        refine .inr ⟨_, rfl, .inr hd, ?_, ?_, ?_⟩ <;> simp [issuesIn, hnotTag, hd, hfields]
    | refused want ht =>
      cases hdeadline with
      | given _ hnotDeadline =>
        refine .inr ⟨_, rfl, .inl ht, ?_, ?_, ?_⟩ <;>
          simp [issuesIn, ht, hnotDeadline, hfields.symm]
      | refused want' hd =>
        refine .inr ⟨_, rfl, .inl ht, ?_, ?_, ?_⟩ <;> simp [issuesIn, ht, hd]

end Settings

/-! ### Environments -/

namespace Environment

/-- No client is configured, for the reason of the fault. -/
def Refuses (number? : Text → Option Double) (e : Environment) (f : Fault) : Prop :=
  (e.client number?).mapError (Fault.ofIssues .settings) = .error f

/-- The settings are what the three texts of the environment give. -/
structure Configures (number? : Text → Option Double) (e : Environment) (s : Settings) : Prop where
  binary : Settings.BinaryOf (e.get? binaryName) s.binary
  encoding : Settings.EncodingOf (e.get? encodingName) s.encoding
  deadline : Settings.DeadlineOf number? (e.get? deadlineName) s.deadline

end Environment

namespace Settings

/-- The command that a text gives is never empty. -/
theorem BinaryOf.ne_nil {text : Option Text} {binary : Text} (h : BinaryOf text binary) :
    binary ≠ [] := by
  rintro rfl
  cases h with
  | given h => cases h

end Settings

/-- A client has what the settings say: neither the command nor the tag is empty. -/
theorem Client.ofSettings_eq {s : Settings} (h : s.binary ≠ []) :
    Client.ofSettings s = ⟨s.binary, .text s.encoding.name, s.deadline.map .float⟩ := by
  have hencoding : (Value.text s.encoding.name).isEmpty = false := by
    cases s.encoding <;> rfl
  simp [ofSettings, make, h, hencoding]

namespace Environment

variable {number? : Text → Option Double} {e : Environment}

/-- The tag or the deadline of the environment is refused. -/
def Objectionable (number? : Text → Option Double) (e : Environment) : Prop :=
  Settings.RefusesTag (e.get? encodingName) ∨ Settings.RefusesDeadline number? (e.get? deadlineName)

/-- An environment gives settings, or what it refuses of the tag and the deadline is named. -/
theorem settings_cases (number? : Text → Option Double) (e : Environment) :
    (∃ s, e.settings number? = .ok s ∧ e.Configures number? s ∧ ¬ e.Objectionable number?) ∨
      ∃ issues, e.settings number? = .error issues ∧ e.Objectionable number? ∧
        Settings.Objects number? (e.get? encodingName) (e.get? deadlineName) issues := by
  rcases Settings.ofFields_of_texts number? (e.get? binaryName) (e.get? encodingName)
      (e.get? deadlineName) with ⟨s, h, hbinary, hencoding, hdeadline, hnot⟩ | h
  · exact .inl ⟨s, h, ⟨hbinary, hencoding, hdeadline⟩, hnot⟩
  · exact .inr h

theorem client_of_settings {s : Settings} (h : e.settings number? = .ok s)
    (hs : e.Configures number? s) :
    e.client number? = .ok ⟨s.binary, .text s.encoding.name, s.deadline.map .float⟩ := by
  rw [client, h, ← Client.ofSettings_eq hs.binary.ne_nil]
  rfl

/-- An environment refuses for the issues of its settings, and for nothing else. -/
theorem refuses_iff {issues : List Issue} (h : e.settings number? = .error issues) {f : Fault} :
    e.Refuses number? f ↔ f = Fault.ofIssues .settings issues := by
  rw [Refuses, client, h]
  exact ⟨fun hf => (Except.error.inj hf).symm, fun hf => hf ▸ rfl⟩

theorem not_refuses {s : Settings} (h : e.settings number? = .ok s) :
    ¬ ∃ f, e.Refuses number? f := by
  rintro ⟨f, hf⟩
  rw [Refuses, client, h] at hf
  cases hf

/-- The issues of an environment whose tag holds no lone half can be reported. -/
theorem ofIssues_of_scalar {issues : List Issue} (h : e.settings number? = .error issues)
    (htag : ∀ t, e.get? encodingName = some t → t.Scalar) :
    Fault.ofIssues .settings issues = .invalid .settings issues := by
  have hreported : (issuesIn (e.settings number?)).findSome? Issue.unencodable? = none :=
    Settings.findSome?_of_scalar htag
  rw [h, issuesIn] at hreported
  rw [Fault.ofIssues, Fault.ofIssuesAs, hreported]

end Environment

/-- An environment refuses to configure a client exactly if it has a tag that is not empty and
spells the name of no encoding, or a deadline that is not blank and not read as a number greater
than zero; the command never counts, lone halves or not. If the tag holds no lone half, the fault is
one of settings, and its issues name what is refused. Otherwise there are settings, which are what
the texts give, and the client has them as they are. A session of it begins at rest without a child,
and until another tag is assigned in it no request fails for the tag. -/
theorem environment_configures (number? : Text → Option Double) (e : Environment) :
    ((∃ f, e.Refuses number? f) ↔ e.Objectionable number?) ∧
    (∀ f, e.Refuses number? f → (∀ t, e.get? Environment.encodingName = some t → t.Scalar) →
      ∃ issues, f = .invalid .settings issues ∧
        Settings.Objects number? (e.get? Environment.encodingName) (e.get? Environment.deadlineName)
          issues) ∧
    (¬ e.Objectionable number? → ∃ settings client, e.settings number? = .ok settings ∧
      e.Configures number? settings ∧ e.client number? = .ok client ∧
      client = ⟨settings.binary, .text settings.encoding.name, settings.deadline.map .float⟩ ∧
      ∀ launches, (State.initial client launches).running = false ∧
        (State.initial client launches).child = none ∧
        ∀ episodes s, Session client launches episodes s →
          (∀ episode ∈ episodes, ∀ tag, episode.command ≠ .setEncoding tag) →
          ∀ command outcome s' c f, s.Performs command outcome s' →
            outcome.answer? c = some (.error f) → f.report.kind ≠ .invalidEncoding) := by
  rcases e.settings_cases number? with ⟨settings, h, hconfigures, hnot⟩ | ⟨issues, h, hor, hobjects⟩
  · have hnone := Environment.not_refuses h
    refine ⟨iff_of_false hnone hnot, fun f hf => absurd ⟨f, hf⟩ hnone,
      fun _ => ⟨settings, _, h, hconfigures, Environment.client_of_settings h hconfigures, rfl,
        fun launches => ⟨rfl, rfl, ?_⟩⟩⟩
    intro episodes s hsession hkeep command outcome s' c f hp hf
    have htag : ContentEncoding.ofValue (.text settings.encoding.name) =
        .ok settings.encoding := by
      cases settings.encoding <;> rfl
    exact hsession.kind htag hkeep hp hf
  · refine ⟨iff_of_true ⟨_, (Environment.refuses_iff h).mpr rfl⟩ hor, fun f hf htag => ?_,
      fun hnot => absurd hor hnot⟩
    rw [Environment.refuses_iff h, Environment.ofIssues_of_scalar h htag] at hf
    exact ⟨issues, hf, hobjects⟩

/-- An environment whose override is forced, with a blank command, and a tag in odd letters. -/
def Environment.shouted : Environment :=
  ⟨[(Environment.binaryName, "/bin/cat")], none,
    [(Bindings.forceName, some " True\n"), (Environment.binaryName, some " \t"),
      (Environment.encodingName, some "bASE64"), (Environment.deadlineName, some " 2.0 ")]⟩

theorem shouted_configures :
    ∃ settings client, Environment.shouted.settings Text.number? = .ok settings ∧
      settings = ⟨Settings.standardBinary, .base64, some ⟨false, 1024, 0⟩⟩ ∧
      Environment.shouted.client Text.number? = .ok client ∧
      client.binary = Settings.standardBinary ∧ client.encoding = .text "base64" := by
  have hs : Environment.shouted.settings Text.number? =
      .ok ⟨Settings.standardBinary, .base64, some ⟨false, 1024, 0⟩⟩ := by
    decide +kernel
  obtain ⟨hrefuses, -, hconfigured⟩ := environment_configures Text.number? .shouted
  have hnot : ¬ Environment.shouted.Objectionable Text.number? :=
    fun h => Environment.not_refuses hs (hrefuses.mpr h)
  obtain ⟨settings, client, hsettings, -, hclient, rfl, -⟩ := hconfigured hnot
  obtain rfl := Except.ok.inj (hs.symm.trans hsettings)
  exact ⟨_, _, hs, rfl, hclient, rfl, rfl⟩

/-- An environment in which a name has one lone half for a value. -/
def Environment.halved (name : Text) : Environment := ⟨[(name, [.ofNat 0xDC80])], none, []⟩

/-- A lone half in a command is no reason to refuse it; in a tag it is one that is not reported as
an issue of settings. -/
theorem halved_configures :
    (¬ ∀ e : Environment, (∃ issues, e.Refuses Text.number? (.invalid .settings issues)) ↔
      e.Objectionable Text.number? ∨
        ∃ t, e.get? Environment.binaryName = some t ∧ t.isBlank = false ∧ ¬ t.Scalar) ∧
    ¬ ∀ e : Environment, e.Objectionable Text.number? →
      ∃ issues, e.Refuses Text.number? (.invalid .settings issues) := by
  constructor
  · intro h
    have hlone : ∃ t, (Environment.halved Environment.binaryName).get? Environment.binaryName =
        some t ∧ t.isBlank = false ∧ ¬ t.Scalar :=
      ⟨[.ofNat 0xDC80], by decide, by decide, by decide⟩
    have hs : (Environment.halved Environment.binaryName).settings Text.number? =
        .ok ⟨[.ofNat 0xDC80], .utf8, none⟩ := by decide +kernel
    obtain ⟨issues, hrefuses⟩ := (h _).mpr (.inr hlone)
    exact Environment.not_refuses hs ⟨_, hrefuses⟩
  · intro h
    have hs : (Environment.halved Environment.encodingName).settings Text.number? = .error
        [⟨[.field "encoding"], .other (Settings.refusal [.ofNat 0xDC80])⟩] := by decide +kernel
    have hobjectionable :
        (Environment.halved Environment.encodingName).Objectionable Text.number? := by
      rcases (Environment.halved Environment.encodingName).settings_cases Text.number? with
        ⟨s, hok, -⟩ | ⟨_, -, hor, -⟩
      · rw [hs] at hok
        cases hok
      · exact hor
    obtain ⟨issues, hrefuses⟩ := h _ hobjectionable
    rw [Environment.refuses_iff hs] at hrefuses
    cases hrefuses

end ParserClient
