import ShaderLift.Proofs.Conversation

/-!
# Whole sessions

A session takes one step after another: it saves its transcript, loads another
one, or asks for a revision.  Whatever the steps are and however the vendors
answer, a step that fails leaves the transcript alone, a revision adds one turn
behind the others, and every step sends at most one request, which carries the
transcript as it stood before the step.  All turns of such a session are
dialogues, if those that it starts with are: a revision adds one, and a file is
read as nothing else.
-/

namespace ShaderLift
namespace Chat

/-! ## Dialogues -/

theorem Turn.isDialogue_of_ofTexts?
    {entries : Document.Entries}
    {turn : Turn}
    (made : ofTexts? entries = some turn) : turn.IsDialogue := by
  simp only [ofTexts?, Option.bind_eq_bind, Option.bind_eq_some_iff,
    Option.pure_def, Option.some.injEq] at made
  obtain ⟨_, _, _, _, _, _, _, _, _, _, rfl⟩ := made
  exact ⟨rfl, rfl⟩

theorem Turn.isDialogue_of_ofValue
    {index : Int}
    {value : Document.Value}
    {turn : Turn}
    (made : ofValue index value = .ok turn) : turn.IsDialogue := by
  unfold ofValue at made
  split at made
  · split at made
    · split at made
      · next read =>
          obtain rfl := Except.ok.inj made
          exact isDialogue_of_ofTexts? read
      · contradiction
    · contradiction
  · contradiction

theorem Transcript.isDialogue_of_ofItems
    {index : Int}
    {items : List Document.Value}
    {turns : Transcript}
    (made : ofItems index items = .ok turns) :
    ∀ turn ∈ turns, turn.IsDialogue := by
  induction items generalizing index turns with
  | nil =>
      obtain rfl := Except.ok.inj made
      exact List.forall_mem_nil _
  | cons item rest inductionHypothesis =>
      unfold ofItems at made
      split at made
      · contradiction
      · next first read =>
          split at made
          · contradiction
          · next others readOthers =>
              obtain rfl := Except.ok.inj made
              exact List.forall_mem_cons.mpr
                ⟨Turn.isDialogue_of_ofValue read, inductionHypothesis readOthers⟩

/-- Whatever a file is read as, its turns are dialogues. -/
theorem Transcript.isDialogue_of_load
    {store : FileStore}
    {path : String}
    {reader : Yaml.Reader}
    {turns : Transcript}
    (loaded : load store path reader = .ok turns) :
    ∀ turn ∈ turns, turn.IsDialogue := by
  unfold load at loaded
  dsimp only at loaded
  split at loaded
  · obtain rfl := Except.ok.inj loaded
    exact List.forall_mem_nil _
  · split at loaded
    · contradiction
    · obtain ⟨reading, -, made⟩ := bind_eq_ok_iff.mp loaded
      unfold ofValue at made
      split at made
      · obtain rfl := Except.ok.inj made
        exact List.forall_mem_nil _
      · split at made
        · next read =>
            obtain rfl := Except.ok.inj made
            exact isDialogue_of_ofItems read
        · contradiction
      · contradiction

/-- A revision records what the user asked and what the assistant replied. -/
theorem Vendor.isDialogue_of_revise
    {vendor : Vendor}
    {inquiry : Inquiry}
    {turns : Transcript}
    {now : Moment}
    {channel : Channel}
    {turn : Turn}
    (revised : (vendor.revise inquiry turns now channel).outcome = .ok turn) :
    turn.IsDialogue := by
  rw [Vendor.outcome_revise] at revised
  obtain ⟨reply, -, read⟩ := bind_eq_ok_iff.mp revised
  cases held : shaderOf reply with
  | none =>
      rw [held] at read
      contradiction
  | some shader =>
      rw [held] at read
      obtain rfl := Except.ok.inj read
      exact ⟨rfl, rfl⟩

/-! ## One step -/

namespace Session

/-- What a request for a revision can lead to. -/
theorem step_fetch_cases
    (session : Session)
    (clients : List Vendor)
    (inquiry : Inquiry)
    (now : Moment)
    (channel : Channel) :
    (∃ error, provider inquiry.model clients = .error error ∧
      (session.step (.fetch clients inquiry now channel)).value =
        { error := some (.fetch (.chat error)), session := session }) ∨
    ∃ vendor, provider inquiry.model clients = .ok vendor ∧
      ((∃ problem,
        (session.step (.fetch clients inquiry now channel)).value =
          { requests := [vendor.request inquiry.model
              (inquiry.conversation session.turns)]
            error := some (.fetch problem)
            session := session }) ∨
      ∃ turn : Turn, turn.IsDialogue ∧
        (session.step (.fetch clients inquiry now channel)).value =
          { requests := [vendor.request inquiry.model
              (inquiry.conversation session.turns)]
            session := { session with turns := session.turns ++ [turn] } }) := by
  have fetched := value_fetch clients inquiry session.turns now channel
  unfold step
  dsimp only
  rw [Logged.value_bind]
  cases served : provider inquiry.model clients with
  | error error =>
      rw [served] at fetched
      left
      exact ⟨error, rfl, by rw [fetched]; rfl⟩
  | ok vendor =>
      rw [served] at fetched
      right
      refine ⟨vendor, rfl, ?_⟩
      rw [fetched]
      dsimp only
      cases revised :
          (vendor.revise inquiry session.turns now channel).outcome with
      | error problem => exact Or.inl ⟨problem, rfl⟩
      | ok turn =>
          exact Or.inr ⟨turn, Vendor.isDialogue_of_revise revised, rfl⟩

/-- A step that saves keeps the transcript and sends nothing. -/
theorem step_save
    (session : Session)
    (path : String) :
    (session.step (.save path)).value.session.turns = session.turns ∧
      (session.step (.save path)).value.requests = [] := by
  unfold step
  dsimp only
  cases Transcript.save session.files path session.turns <;> exact ⟨rfl, rfl⟩

/-- A step that loads sends nothing, and keeps the transcript if it fails. -/
theorem step_load
    (session : Session)
    (path : String)
    (reader : Yaml.Reader) :
    ((session.step (.load path reader)).value.error ≠ none →
      (session.step (.load path reader)).value.session.turns = session.turns) ∧
      (session.step (.load path reader)).value.requests = [] := by
  unfold step
  dsimp only
  cases Transcript.load session.files path reader with
  | error problem => exact ⟨fun _ => rfl, rfl⟩
  | ok turns => exact ⟨fun failed => absurd rfl failed, rfl⟩

/-- A step keeps the turns of a session dialogues. -/
theorem isDialogue_of_step
    {session : Session}
    (spoken : ∀ turn ∈ session.turns, turn.IsDialogue)
    (step : Step) :
    ∀ turn ∈ (session.step step).value.session.turns, turn.IsDialogue := by
  cases step with
  | save path => rwa [(session.step_save path).1]
  | load path reader =>
      unfold Session.step
      dsimp only
      cases loaded : Transcript.load session.files path reader with
      | error problem => exact spoken
      | ok turns => exact Transcript.isDialogue_of_load loaded
  | fetch clients inquiry now channel =>
      rcases session.step_fetch_cases clients inquiry now channel with
        ⟨error, -, reported⟩ |
        ⟨vendor, -, ⟨problem, reported⟩ | ⟨turn, added, reported⟩⟩ <;>
        rw [reported]
      · exact spoken
      · exact spoken
      · exact List.forall_mem_append.mpr
          ⟨spoken, List.forall_mem_singleton.mpr added⟩

end Session

/-- A step of a session, with the session before it and its report. -/
structure Event where
  before : Session
  step : Step
  report : StepReport

namespace Event

/-- The event is a revision that was made. -/
def isRevision (event : Event) : Bool :=
  match event.step with
  | .fetch .. => event.report.error.isNone
  | _ => false

/-- What a step does to the transcript, and what it sends. -/
structure KeepsTranscript (event : Event) : Prop where
  /-- The turns before the step are dialogues. -/
  spoken : ∀ turn ∈ event.before.turns, turn.IsDialogue
  /-- So are the turns behind it. -/
  stillSpoken : ∀ turn ∈ event.report.session.turns, turn.IsDialogue
  /-- A step that fails leaves the transcript alone. -/
  failed : event.report.error ≠ none →
    event.report.session.turns = event.before.turns
  /-- A revision adds one turn behind the others. -/
  revised : event.isRevision →
    ∃ turn, event.report.session.turns = event.before.turns ++ [turn]
  /-- At most one request is sent. -/
  sparing : event.report.requests.length ≤ 1
  /-- Nothing is sent without a vendor that serves the model. -/
  sent_iff : ∀ clients inquiry now channel,
    event.step = .fetch clients inquiry now channel →
    (event.report.requests ≠ [] ↔
      ∃ vendor, provider inquiry.model clients = .ok vendor)
  /-- What is sent is the whole conversation. -/
  carried : ∀ clients inquiry now channel,
    event.step = .fetch clients inquiry now channel →
    ∀ request ∈ event.report.requests,
      request.Carries event.before.turns
        (userMessage inquiry.instruction inquiry.shader)
  /-- Both vendors would get the same messages, but for the rules. -/
  alike : ∀ clients inquiry now channel,
    event.step = .fetch clients inquiry now channel →
    ∃ messages,
      Vendor.openAI.request inquiry.model
          (inquiry.conversation event.before.turns) =
        .openAI inquiry.model (rulesMessage :: messages) ∧
      Vendor.anthropic.request inquiry.model
          (inquiry.conversation event.before.turns) =
        .anthropic inquiry.model replyTokens systemPrompt messages

end Event

/-- A step without a request for a revision keeps what is asked of it. -/
theorem keepsTranscript_of_quiet
    {event : Event}
    (spoken : ∀ turn ∈ event.before.turns, turn.IsDialogue)
    (stillSpoken : ∀ turn ∈ event.report.session.turns, turn.IsDialogue)
    (failed : event.report.error ≠ none →
      event.report.session.turns = event.before.turns)
    (quiet : event.report.requests = [])
    (other : ∀ clients inquiry now channel,
      event.step ≠ .fetch clients inquiry now channel) :
    event.KeepsTranscript := by
  refine
    { spoken := spoken
      stillSpoken := stillSpoken
      failed := failed
      revised := ?revised
      sparing := by simp [quiet]
      sent_iff := ?sent
      carried := ?carried
      alike := ?alike }
  case revised =>
    intro made
    unfold Event.isRevision at made
    split at made
    · next asked => exact absurd asked (other _ _ _ _)
    · contradiction
  all_goals
    intro clients inquiry now channel asked
    exact absurd asked (other clients inquiry now channel)

/-- A request for a revision keeps what is asked of it if one request goes to
the vendor that serves the model, and none without such a vendor. -/
theorem keepsTranscript_of_sent
    {event : Event}
    {clients : List Vendor}
    {inquiry : Inquiry}
    {now : Moment}
    {channel : Channel}
    (step : event.step = .fetch clients inquiry now channel)
    (spoken : ∀ turn ∈ event.before.turns, turn.IsDialogue)
    (stillSpoken : ∀ turn ∈ event.report.session.turns, turn.IsDialogue)
    (failed : event.report.error ≠ none →
      event.report.session.turns = event.before.turns)
    (revised : event.isRevision →
      ∃ turn, event.report.session.turns = event.before.turns ++ [turn])
    (sent : event.report.requests =
      (provider inquiry.model clients).toOption.toList.map fun vendor =>
        vendor.request inquiry.model
          (inquiry.conversation event.before.turns)) :
    event.KeepsTranscript := by
  have asked :
      (userMessage inquiry.instruction inquiry.shader).role = .user := rfl
  refine
    { spoken := spoken
      stillSpoken := stillSpoken
      failed := failed
      revised := revised
      sparing := ?sparing
      sent_iff := ?sent
      carried := ?carried
      alike := ?alike }
  case sparing =>
    rw [sent, List.length_map]
    cases provider inquiry.model clients <;> simp [Except.toOption]
  case sent =>
    intro _ _ _ _ same
    cases step.symm.trans same
    rw [sent]
    cases provider inquiry.model clients <;> simp [Except.toOption]
  case carried =>
    intro _ _ _ _ same request found
    cases step.symm.trans same
    rw [sent, List.mem_map] at found
    obtain ⟨vendor, _, rfl⟩ := found
    exact carries_request vendor inquiry.model spoken asked
  case alike =>
    intro _ _ _ _ same
    cases step.symm.trans same
    exact requests_alike inquiry.model spoken asked

/-- Every step at dialogues keeps the transcript as it should. -/
theorem keepsTranscript_step
    {session : Session}
    (spoken : ∀ turn ∈ session.turns, turn.IsDialogue)
    (step : Step) :
    Event.KeepsTranscript ⟨session, step, (session.step step).value⟩ := by
  have stillSpoken := Session.isDialogue_of_step spoken step
  cases step with
  | save path =>
      obtain ⟨kept, quiet⟩ := session.step_save path
      exact keepsTranscript_of_quiet spoken stillSpoken (fun _ => kept) quiet
        (by simp)
  | load path reader =>
      obtain ⟨kept, quiet⟩ := session.step_load path reader
      generalize (session.step (.load path reader)).value = report
        at stillSpoken kept quiet ⊢
      exact keepsTranscript_of_quiet spoken stillSpoken kept quiet (by simp)
  | fetch clients inquiry now channel =>
      rcases session.step_fetch_cases clients inquiry now channel with
        ⟨error, refused, reported⟩ |
        ⟨vendor, served, ⟨problem, reported⟩ | ⟨turn, -, reported⟩⟩ <;>
        rw [reported] at stillSpoken ⊢
      · apply keepsTranscript_of_sent rfl spoken stillSpoken (fun _ => rfl)
          (by nofun)
        rw [refused]
        rfl
      · apply keepsTranscript_of_sent rfl spoken stillSpoken (fun _ => rfl)
          (by nofun)
        rw [served]
        rfl
      · apply keepsTranscript_of_sent rfl spoken stillSpoken
          (fun failed => absurd rfl failed) (fun _ => ⟨turn, rfl⟩)
        rw [served]
        rfl

/-! ## Whole sessions -/

namespace Session

/-- The session after some steps. -/
def after (session : Session) (steps : List Step) : Session :=
  steps.foldl (fun current step => (current.step step).value.session) session

/-- What happens in the course of some steps. -/
def trace : Session → List Step → List Event
  | _, [] => []
  | session, step :: steps =>
      ⟨session, step, (session.step step).value⟩ ::
        trace (session.step step).value.session steps

@[simp] theorem after_nil (session : Session) : session.after [] = session :=
  rfl

@[simp] theorem after_cons
    (session : Session)
    (step : Step)
    (steps : List Step) :
    session.after (step :: steps) =
      ((session.step step).value.session).after steps :=
  rfl

/-- The turns of a session stay dialogues in the course of any steps. -/
theorem isDialogue_of_after
    {session : Session}
    (spoken : ∀ turn ∈ session.turns, turn.IsDialogue)
    (steps : List Step) :
    ∀ turn ∈ (session.after steps).turns, turn.IsDialogue := by
  induction steps generalizing session with
  | nil => exact spoken
  | cons step steps inductionHypothesis =>
      exact inductionHypothesis (isDialogue_of_step spoken step)

/-- Every event is a step at a session that the steps before it lead to. -/
theorem exists_of_mem_trace
    {session : Session}
    {steps : List Step}
    {event : Event}
    (found : event ∈ session.trace steps) :
    ∃ done rest, steps = done ++ event.step :: rest ∧
      event.before = session.after done ∧
      event.report = (event.before.step event.step).value := by
  induction steps generalizing session with
  | nil => contradiction
  | cons step steps inductionHypothesis =>
      rw [trace, List.mem_cons] at found
      rcases found with rfl | later
      · exact ⟨[], steps, rfl, rfl, rfl⟩
      · obtain ⟨done, rest, split, reached, reported⟩ :=
          inductionHypothesis later
        exact ⟨step :: done, rest, by rw [split]; rfl, reached, reported⟩

end Session

/-- The step replaces the transcript by the one in a file. -/
def Step.IsLoad : Step → Prop
  | .load .. => True
  | _ => False

/-- A step that does not load adds a turn exactly if it is a revision. -/
theorem exists_added_step
    (session : Session)
    {step : Step}
    (other : ¬ step.IsLoad) :
    ∃ added,
      (session.step step).value.session.turns = session.turns ++ added ∧
      added.length = ([Event.mk session step (session.step step).value].filter
        Event.isRevision).length := by
  cases step with
  | load path reader => exact absurd trivial other
  | save path =>
      refine ⟨[], ?_, rfl⟩
      rw [List.append_nil]
      exact (session.step_save path).1
  | fetch clients inquiry now channel =>
      rcases session.step_fetch_cases clients inquiry now channel with
        ⟨error, _, reported⟩ |
        ⟨vendor, _, ⟨problem, reported⟩ | ⟨turn, _, reported⟩⟩
      · exact ⟨[], by rw [reported, List.append_nil], by rw [reported]; rfl⟩
      · exact ⟨[], by rw [reported, List.append_nil], by rw [reported]; rfl⟩
      · exact ⟨[turn], by rw [reported], by rw [reported]; rfl⟩

/-- As long as nothing is loaded the transcript only grows, by one turn for
every revision. -/
theorem exists_added_after
    (session : Session)
    (steps : List Step)
    (others : ∀ step ∈ steps, ¬ step.IsLoad) :
    ∃ added, (session.after steps).turns = session.turns ++ added ∧
      added.length = ((session.trace steps).filter Event.isRevision).length := by
  induction steps generalizing session with
  | nil => exact ⟨[], by simp, rfl⟩
  | cons step steps inductionHypothesis =>
      obtain ⟨other, others⟩ := List.forall_mem_cons.mp others
      obtain ⟨first, grown, counted⟩ := exists_added_step session other
      obtain ⟨more, grownMore, countedMore⟩ :=
        inductionHypothesis (session.step step).value.session others
      refine ⟨first ++ more, ?_, ?_⟩
      · rw [Session.after_cons, grownMore, grown, List.append_assoc]
      · rw [Session.trace, ← List.singleton_append, List.filter_append,
          List.length_append, List.length_append, counted, countedMore]

/-- In every session, from any transcript of dialogues, by any steps, with any
reader of files and any answers of the vendors, every step keeps the transcript
as it should; and as long as nothing is loaded the transcript grows by one turn
for every revision. -/
theorem session_keeps_transcript
    {session : Session}
    (spoken : ∀ turn ∈ session.turns, turn.IsDialogue)
    (steps : List Step) :
    (∀ event ∈ session.trace steps, event.KeepsTranscript) ∧
    ((∀ step ∈ steps, ¬ step.IsLoad) →
      ∃ added, (session.after steps).turns = session.turns ++ added ∧
        added.length =
          ((session.trace steps).filter Event.isRevision).length) := by
  refine ⟨?_, exists_added_after session steps⟩
  intro event found
  obtain ⟨done, _, _, reached, reported⟩ := Session.exists_of_mem_trace found
  have spokenBefore : ∀ turn ∈ event.before.turns, turn.IsDialogue := by
    rw [reached]
    exact Session.isDialogue_of_after spoken done
  have kept := keepsTranscript_step spokenBefore event.step
  rwa [← reported] at kept

/-- One revision by a vendor that replies with a shader. -/
theorem session_keeps_transcript_oneRevision :
    let session : Session :=
      ⟨[⟨"2024-01-01T00:00:00+00:00", "redder", ⟨.user, "request"⟩,
          ⟨.assistant, "reply"⟩, "a"⟩], { root := "/work" }⟩
    let step : Step := .fetch [.anthropic]
      ⟨"claude-3-5-sonnet-20241022", "a", "bluer"⟩
      ⟨⟨2024, 1, 2⟩, 3, 4, 5, 0, some 0⟩
      fun _ => .blocks [⟨"text", "```glsl\nb\n```"⟩]
    (∀ turn ∈ session.turns, turn.IsDialogue) ∧
      Event.KeepsTranscript ⟨session, step, (session.step step).value⟩ ∧
      ∃ added, (session.after [step]).turns = session.turns ++ added ∧
        added.length = 1 := by
  intro session step
  have spoken : ∀ turn ∈ session.turns, turn.IsDialogue := by
    decide
  have kept := session_keeps_transcript spoken [step]
  refine ⟨spoken, kept.1 _ List.mem_cons_self, ?_⟩
  have revised :
      Event.isRevision ⟨session, step, (session.step step).value⟩ = true := by
    decide +kernel
  obtain ⟨added, grown, counted⟩ :=
    kept.2 (List.forall_mem_singleton.mpr id)
  refine ⟨added, grown, counted.trans ?_⟩
  rw [Session.trace, List.filter_cons_of_pos revised]
  rfl

end Chat
end ShaderLift
