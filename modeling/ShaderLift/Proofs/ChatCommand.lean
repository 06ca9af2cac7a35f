import ShaderLift.CommandLine.Run
import ShaderLift.Proofs.Conversation
import ShaderLift.Proofs.Delivery

/-!
# The chat command and its files

The chat command gathers a shader, a transcript and a vendor, sends one request
and reads the shader in the reply.  Whatever fails on that way ends the command
with the files as they were.  Only behind the last check is anything written:
the transcript with one turn more, and then the shader of that turn.
-/

namespace ShaderLift

namespace Chat

/-- The vendor whose client can be made is one that can be asked. -/
theorem provider_of_client
    {environment : Environment}
    {model : String}
    {faults : ClientFaults}
    {vendor : Vendor}
    (found : client environment model faults = .ok vendor) :
    provider model [vendor] = .ok vendor := by
  unfold client at found
  unfold provider
  cases served : vendorOf? model with
  | none => rw [served] at found; contradiction
  | some other =>
      rw [served] at found
      dsimp only at found ⊢
      split at found
      · contradiction
      · split at found
        · contradiction
        · cases found
          simp

end Chat

namespace CommandLine

open Chat

/-! ## What a request needs -/

/-- The inquiry that the command makes about a shader. -/
def ChatOrder.inquiry (order : ChatOrder) (shader : String) : Inquiry :=
  ⟨order.model, shader, order.instruction⟩

/-- The shader that is sent, if its file can be read and, where that is asked
for, converted. -/
def shaderText? (files : FileStore) (order : ChatOrder) : Option String := do
  let text ← (files.readText (Path.plain order.shader)).toOption
  let source := String.ofList text
  if order.convertsFirst then
    (Conversion.convert (some source) .builtin
      (some order.shader)).value.unwrap.toOption
  else some source

/-- The transcript that is continued, if its file can be read. -/
def earlierTurns?
    (surroundings : Surroundings)
    (order : ChatOrder) : Option Transcript :=
  match order.history with
  | none => some []
  | some path =>
      (Transcript.load surroundings.files path surroundings.reader).toOption

/-- The command cannot come to its request. -/
inductive FailsEarly (surroundings : Surroundings) (order : ChatOrder) : Prop
  | unknownModel (unknown : order.model ∉ availableModels)
  | noShader (missing : shaderText? surroundings.files order = none)
  | noHistory (missing : earlierTurns? surroundings order = none)
  | noClient (error : CallError)
      (missing : client surroundings.environment order.model
        surroundings.clientFaults = .error error)

/-- The command has all that its request needs. -/
structure IsPrepared
    (surroundings : Surroundings)
    (order : ChatOrder)
    (shader : String)
    (turns : Transcript)
    (vendor : Vendor) : Prop where
  known : order.model ∈ availableModels
  shader_eq : shaderText? surroundings.files order = some shader
  turns_eq : earlierTurns? surroundings order = some turns
  vendor_eq : client surroundings.environment order.model
    surroundings.clientFaults = .ok vendor

/-- A command fails before its request or has all that it needs. -/
theorem failsEarly_or_isPrepared
    (surroundings : Surroundings)
    (order : ChatOrder) :
    FailsEarly surroundings order ∨
      ∃ shader turns vendor,
        IsPrepared surroundings order shader turns vendor := by
  by_cases known : order.model ∈ availableModels
  · cases shader : shaderText? surroundings.files order with
    | none => exact Or.inl (.noShader shader)
    | some text =>
        cases history : earlierTurns? surroundings order with
        | none => exact Or.inl (.noHistory history)
        | some turns =>
            cases found : client surroundings.environment order.model
                surroundings.clientFaults with
            | error error => exact Or.inl (.noClient error found)
            | ok vendor =>
                exact Or.inr ⟨text, turns, vendor, known, shader, history, found⟩
  · exact Or.inl (.unknownModel known)

/-! ## Gathering -/

/-- The shader is handed on exactly if it can be read and converted. -/
theorem outcome_chatShader
    (files : FileStore)
    (order : ChatOrder) :
    (chatShader files order).outcome =
      (shaderText? files order).elim (.error .logged) .ok := by
  have gathered : shaderText? files order =
      (if order.convertsFirst then convertFile files order.shader .builtin
        else readShader files order.shader).value := by
    unfold shaderText?
    cases order.convertsFirst with
    | false =>
        rw [if_neg Bool.false_ne_true, value_readShader]
        cases files.readText (Path.plain order.shader) <;> rfl
    | true =>
        rw [if_pos rfl, value_convertFile, value_readShader]
        cases files.readText (Path.plain order.shader) <;> rfl
  rw [gathered, chatShader, Attempt.outcome_bind, Attempt.outcome_ofLogged]
  cases (if order.convertsFirst then convertFile files order.shader .builtin
    else readShader files order.shader).value <;> rfl

/-- The transcript is handed on exactly if it can be read. -/
theorem outcome_chatHistory
    (surroundings : Surroundings)
    (order : ChatOrder) :
    ∃ stop,
      (chatHistory surroundings.files order surroundings.reader).outcome =
        (earlierTurns? surroundings order).elim (.error stop) .ok := by
  unfold chatHistory earlierTurns?
  cases order.history with
  | none => exact ⟨.logged, rfl⟩
  | some path =>
      dsimp only
      cases Transcript.load surroundings.files path surroundings.reader with
      | ok turns => exact ⟨.logged, rfl⟩
      | error error =>
          cases error with
          | fault cause => exact ⟨.failed (.transcript cause), rfl⟩
          | _ => exact ⟨.logged, rfl⟩

/-- Why a command without a client stops. -/
def stopOf : CallError → Stop
  | .crash detail => .failed (.crash detail)
  | .chat _ => .logged

/-- The stages before the request, in order. -/
theorem outcome_prepare
    (surroundings : Surroundings)
    (order : ChatOrder) :
    (prepare surroundings order).outcome =
      if order.model ∈ availableModels then
        (chatShader surroundings.files order).outcome.bind fun shader =>
          (chatHistory surroundings.files order
            surroundings.reader).outcome.bind fun turns =>
              ((client surroundings.environment order.model
                surroundings.clientFaults).mapError stopOf).map fun vendor =>
                  ⟨order.inquiry shader, turns, vendor⟩
      else .error .logged := by
  unfold prepare
  by_cases known : order.model ∈ availableModels
  · have listed : (!availableModels.contains order.model) = false := by
      simpa using known
    rw [listed, if_neg Bool.false_ne_true, if_pos known]
    simp only [Attempt.outcome_bind]
    congr
    funext shader
    congr
    funext turns
    cases client surroundings.environment order.model
        surroundings.clientFaults with
    | ok vendor => rfl
    | error error => cases error <;> rfl
  · have unlisted : (!availableModels.contains order.model) = true := by
      simpa using known
    rw [unlisted, if_pos rfl, if_neg known]
    rfl

/-- A command that fails early stops before its request. -/
theorem FailsEarly.exists_stop
    {surroundings : Surroundings}
    {order : ChatOrder}
    (fails : FailsEarly surroundings order) :
    ∃ stop, (prepare surroundings order).outcome = .error stop := by
  obtain ⟨stop, history⟩ := outcome_chatHistory surroundings order
  rw [outcome_prepare, outcome_chatShader, history]
  by_cases known : order.model ∈ availableModels
  · rw [if_pos known]
    cases shader : shaderText? surroundings.files order with
    | none => exact ⟨.logged, rfl⟩
    | some text =>
        cases turns : earlierTurns? surroundings order with
        | none => exact ⟨stop, rfl⟩
        | some turns =>
            cases fails with
            | unknownModel unknown => exact absurd known unknown
            | noShader missing => rw [missing] at shader; contradiction
            | noHistory missing => simp [missing] at turns
            | noClient error missing =>
                exact ⟨stopOf error, by rw [missing]; rfl⟩
  · exact ⟨.logged, if_neg known⟩

theorem IsPrepared.outcome_prepare
    {surroundings : Surroundings}
    {order : ChatOrder}
    {shader : String}
    {turns : Transcript}
    {vendor : Vendor}
    (prepared : IsPrepared surroundings order shader turns vendor) :
    (prepare surroundings order).outcome =
      .ok ⟨order.inquiry shader, turns, vendor⟩ := by
  obtain ⟨stop, history⟩ := outcome_chatHistory surroundings order
  rw [CommandLine.outcome_prepare, if_pos prepared.known, outcome_chatShader,
    prepared.shader_eq, history, prepared.turns_eq, prepared.vendor_eq]
  rfl

/-! ## Handing out -/

/-- The transcript is saved if a file for it is named, and then the shader goes
to the output. -/
def HandsOut
    (files : FileStore)
    (order : ChatOrder)
    (turns : Transcript)
    (shader : String)
    (report : Report) : Prop :=
  match order.history with
  | none => Delivers files shader order.output report
  | some path =>
      (∃ saved, Transcript.save files path turns = .ok saved ∧
        Delivers saved shader order.output report) ∨
      ∃ problem, Transcript.save files path turns = .error problem ∧
        report.ending = .stopped (.failed (.file problem)) ∧
        report.files = files

theorem handsOut_handOut
    (files : FileStore)
    (order : ChatOrder)
    (turns : Transcript)
    (shader : String)
    (requests : Option (List Request)) :
    HandsOut files order turns shader
      { (handOut files order turns shader).value with requests := requests } := by
  unfold HandsOut handOut saveHistory
  cases order.history with
  | none => exact delivers_deliver files shader order.output requests
  | some path =>
      dsimp only
      cases saved : Transcript.save files path turns with
      | ok changed =>
          exact Or.inl ⟨changed, rfl,
            delivers_deliver changed shader order.output requests⟩
      | error problem => exact Or.inr ⟨problem, rfl, rfl, rfl⟩

/-! ## The command -/

/-- The request that the command sends. -/
def chatRequest
    (order : ChatOrder)
    (shader : String)
    (turns : Transcript)
    (vendor : Vendor) : Request :=
  vendor.request order.model ((order.inquiry shader).conversation turns)

/-- The shader in the answer of a vendor, if the call succeeds and the reply
holds one. -/
def revision? (vendor : Vendor) (outcome : Outcome) : Option String :=
  (vendor.replyText outcome).toOption.bind shaderOf

theorem value_chat_of_stop
    {surroundings : Surroundings}
    {order : ChatOrder}
    {stop : Stop}
    (stopped : (prepare surroundings order).outcome = .error stop) :
    (chat surroundings order).value =
      Report.stopped stop surroundings.files := by
  unfold Attempt.outcome at stopped
  rw [chat, Logged.value_bind, stopped]
  rfl

/-- What the command reports on the result of its inquiry, but for the
request. -/
def reportOn
    (files : FileStore)
    (order : ChatOrder)
    (turns : Transcript) : Except CallError Turn → Report
  | .error (.crash detail) => Report.failed (.crash detail) files
  | .error (.chat _) => Report.stopped .logged files
  | .ok turn => (handOut files order (turns ++ [turn]) turn.shaderSource).value

theorem reportOn_error
    (files : FileStore)
    (order : ChatOrder)
    (turns : Transcript)
    (problem : CallError) :
    (reportOn files order turns (.error problem)).ending.exitCode = 1 ∧
      (reportOn files order turns (.error problem)).files = files := by
  cases problem <;> exact ⟨rfl, rfl⟩

/-- A command that has all it needs sends one request and reports on what that
leads to. -/
theorem IsPrepared.value_chat
    {surroundings : Surroundings}
    {order : ChatOrder}
    {shader : String}
    {turns : Transcript}
    {vendor : Vendor}
    (prepared : IsPrepared surroundings order shader turns vendor) :
    (chat surroundings order).value =
      { reportOn surroundings.files order turns
          (vendor.revise (order.inquiry shader) turns surroundings.now
            surroundings.channel).outcome with
        requests := some [chatRequest order shader turns vendor] } := by
  have gathered := prepared.outcome_prepare
  unfold Attempt.outcome at gathered
  have fetched := value_fetch [vendor] (order.inquiry shader) turns
    surroundings.now surroundings.channel
  have served : provider (order.inquiry shader).model [vendor] = .ok vendor :=
    provider_of_client prepared.vendor_eq
  rw [served] at fetched
  rw [chat, Logged.value_bind, gathered]
  dsimp only
  rw [Logged.value_bind, fetched]
  dsimp only
  cases (vendor.revise (order.inquiry shader) turns surroundings.now
      surroundings.channel).outcome with
  | ok turn => rfl
  | error problem => cases problem <;> rfl

/-- An answer leads to a turn exactly if it holds a shader, which is then the
shader of the turn. -/
theorem outcome_revise_cases
    {vendor : Vendor}
    {inquiry : Inquiry}
    {turns : Transcript}
    {channel : Channel}
    {outcome : Outcome}
    (answered : channel
      (vendor.request inquiry.model (inquiry.conversation turns)) = outcome)
    (now : Moment) :
    (revision? vendor outcome = none ∧
      ∃ problem, (vendor.revise inquiry turns now channel).outcome =
        .error problem) ∨
    ∃ revised, revision? vendor outcome = some revised ∧
      (vendor.revise inquiry turns now channel).outcome =
        .ok (inquiry.turn now revised) := by
  rw [Vendor.outcome_revise, answered, revision?]
  cases vendor.replyText outcome with
  | error problem => exact Or.inl ⟨rfl, problem, rfl⟩
  | ok reply =>
      cases held : shaderOf reply with
      | none => exact Or.inl ⟨held, _, by rw [Except.bind, held]⟩
      | some revised => exact Or.inr ⟨revised, held, by rw [Except.bind, held]⟩

/-- Every chat command that makes sense fails before its request or sends
exactly one.  Where it fails early, where the call fails and where the reply
holds no shader, it ends with the code 1 and the files as they were.  Else the
transcript that is saved is the earlier one and one turn more, whose shader is
the one that is handed out. -/
theorem chat_writes_after_reply
    {surroundings : Surroundings}
    {line : List String}
    {isVerbose : Bool}
    {order : ChatOrder}
    (sensible : Invocation.read surroundings.environment line =
      .ok (.run isVerbose (.chat order))) :
    let report := (run surroundings line).value
    (FailsEarly surroundings order →
      report.ending.exitCode = 1 ∧ report.files = surroundings.files ∧
        report.requests = none) ∧
    (∀ shader turns vendor,
      IsPrepared surroundings order shader turns vendor →
      let request := chatRequest order shader turns vendor
      report.requests = some [request] ∧
      (revision? vendor (surroundings.channel request) = none →
        report.ending.exitCode = 1 ∧ report.files = surroundings.files) ∧
      ∀ revised,
        revision? vendor (surroundings.channel request) = some revised →
        ∃ turn, turn.shaderSource = revised ∧
          HandsOut surroundings.files order (turns ++ [turn]) revised report) ∧
    (FailsEarly surroundings order ∨
      ∃ shader turns vendor,
        IsPrepared surroundings order shader turns vendor) := by
  have runs : (run surroundings line).value =
      (chat surroundings order).value := by
    rw [run, sensible]
    rfl
  rw [runs]
  refine ⟨?early, ?prepared, failsEarly_or_isPrepared surroundings order⟩
  case early =>
    intro fails
    obtain ⟨stop, stopped⟩ := fails.exists_stop
    rw [value_chat_of_stop stopped]
    exact ⟨rfl, rfl, rfl⟩
  case prepared =>
    intro shader turns vendor prepared request
    rw [prepared.value_chat]
    have answered : surroundings.channel
        (vendor.request (order.inquiry shader).model
          ((order.inquiry shader).conversation turns)) =
      surroundings.channel request := rfl
    rcases outcome_revise_cases answered surroundings.now with
      ⟨nothing, problem, failed⟩ | ⟨found, held, revised⟩
    · rw [failed]
      refine ⟨rfl, fun _ => ?_, ?_⟩
      · exact reportOn_error surroundings.files order turns problem
      · intro revised held
        exact absurd (held.symm.trans nothing) (by simp)
    · rw [revised]
      refine ⟨rfl, fun nothing => ?_, ?_⟩
      · exact absurd (held.symm.trans nothing) (by simp)
      · intro revised same
        obtain rfl : found = revised := Option.some.inj (held.symm.trans same)
        refine ⟨(order.inquiry shader).turn surroundings.now found, rfl, ?_⟩
        exact handsOut_handOut surroundings.files order _ found _

/-- A working directory with one shader, a key for one vendor, and that vendor's
reply. -/
def oneShader : Surroundings where
  environment := [("ANTHROPIC_API_KEY", "key")]
  files := { root := "/work", entries := [(["a.frag"], .file [97])] }
  now := ⟨⟨2024, 1, 2⟩, 3, 4, 5, 0, some 0⟩
  channel := fun _ => .blocks [⟨"text", "```glsl\nb\n```"⟩]

/-- A revision of the shader, with a transcript that is new and a file for the
output. -/
theorem chat_writes_after_reply_oneShader :
    let line := ["chat", "a.frag", "bluer", "--history", "h.yaml", "-o", "b.frag"]
    let order : ChatOrder :=
      ⟨"a.frag", "bluer", "claude-3-5-sonnet-20241022", some "b.frag",
        some "h.yaml", false⟩
    Invocation.read oneShader.environment line =
        .ok (.run false (.chat order)) ∧
      IsPrepared oneShader order "a" [] .anthropic ∧
      ∃ turn, turn.shaderSource = "b" ∧
        HandsOut oneShader.files order [turn] "b"
          (run oneShader line).value := by
  intro line order
  have sensible : Invocation.read oneShader.environment line =
      .ok (.run false (.chat order)) := by
    rfl
  have prepared : IsPrepared oneShader order "a" [] .anthropic :=
    ⟨by decide, by decide +kernel, by decide +kernel, by rfl⟩
  refine ⟨sensible, prepared, ?_⟩
  have asked := (chat_writes_after_reply sensible).2.1 "a" [] .anthropic prepared
  exact asked.2.2 "b" (by decide +kernel)

end CommandLine
end ShaderLift
