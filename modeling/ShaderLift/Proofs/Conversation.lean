import ShaderLift.Chat.Session
import ShaderLift.Proofs.VendorReply

/-!
# Conversations

What is sent for a request is the system's rules, the two messages of every
earlier turn in order, and the new message.  One vendor gets all of them in one
list; the other gets the rules apart and, in the same order, the messages in
which the user and the assistant take turns.  That nobody else speaks there is
known of transcripts whose turns are dialogues.
-/

namespace ShaderLift
namespace Chat

/-! ## The shape of a prompt -/

/-- The message that states the rules. -/
def rulesMessage : Message :=
  ⟨.system, systemPrompt⟩

/-- The messages of the earlier turns, in order, and the new one. -/
def exchanges (turns : Transcript) (message : Message) : List Message :=
  turns.flatMap Turn.messages ++ [message]

/-- Who speaks in so many turns and the message behind them. -/
def speakers : Nat → List Role
  | 0 => [.user]
  | count + 1 => .user :: .assistant :: speakers count

@[simp] theorem exchanges_nil (message : Message) :
    exchanges [] message = [message] :=
  rfl

@[simp] theorem exchanges_cons
    (turn : Turn)
    (turns : Transcript)
    (message : Message) :
    exchanges (turn :: turns) message =
      turn.userMessage :: turn.assistantMessage :: exchanges turns message :=
  rfl

theorem prompt_eq
    (turns : Transcript)
    (message : Message) :
    prompt turns message = rulesMessage :: exchanges turns message := by
  rw [prompt, List.append_assoc]
  rfl

@[simp] theorem length_exchanges
    (turns : Transcript)
    (message : Message) :
    (exchanges turns message).length = 2 * turns.length + 1 := by
  induction turns with
  | nil => rfl
  | cons turn turns inductionHypothesis =>
      rw [exchanges_cons, List.length_cons, List.length_cons,
        inductionHypothesis, List.length_cons]
      omega

theorem map_role_exchanges
    {turns : Transcript}
    {message : Message}
    (spoken : ∀ turn ∈ turns, turn.IsDialogue)
    (asked : message.role = .user) :
    (exchanges turns message).map Message.role = speakers turns.length := by
  induction turns with
  | nil => rw [exchanges_nil, List.map_singleton, asked]; rfl
  | cons turn turns inductionHypothesis =>
      obtain ⟨⟨byUser, byAssistant⟩, others⟩ := List.forall_mem_cons.mp spoken
      rw [exchanges_cons, List.map_cons, List.map_cons, byUser, byAssistant,
        inductionHypothesis others]
      rfl

theorem system_not_mem_speakers (count : Nat) :
    Role.system ∉ speakers count := by
  induction count with
  | zero => decide
  | succ count inductionHypothesis => simp [speakers, inductionHypothesis]

/-- Nobody but the user and the assistant speaks behind the rules. -/
theorem role_ne_system_of_mem_exchanges
    {turns : Transcript}
    {message said : Message}
    (spoken : ∀ turn ∈ turns, turn.IsDialogue)
    (asked : message.role = .user)
    (found : said ∈ exchanges turns message) :
    said.role ≠ .system := by
  intro isSystem
  apply system_not_mem_speakers turns.length
  rw [← map_role_exchanges spoken asked, ← isSystem]
  exact List.mem_map_of_mem found

/-! ## Requests -/

theorem dialogue_prompt
    {turns : Transcript}
    {message : Message}
    (spoken : ∀ turn ∈ turns, turn.IsDialogue)
    (asked : message.role = .user) :
    dialogue (prompt turns message) = exchanges turns message := by
  have kept : (exchanges turns message).filter
      (fun message => !message.isSystem) = exchanges turns message := by
    apply List.filter_eq_self.mpr
    intro said found
    simp [Message.isSystem, role_ne_system_of_mem_exchanges spoken asked found]
  rw [dialogue, prompt_eq, List.filter_cons_of_neg (by decide), kept]

theorem systemText_prompt
    {turns : Transcript}
    {message : Message}
    (spoken : ∀ turn ∈ turns, turn.IsDialogue)
    (asked : message.role = .user) :
    systemText (prompt turns message) = systemPrompt := by
  have silent : (exchanges turns message).filter Message.isSystem = [] := by
    apply List.filter_eq_nil_iff.mpr
    intro said found
    simp [Message.isSystem, role_ne_system_of_mem_exchanges spoken asked found]
  rw [systemText, prompt_eq, List.filter_cons_of_pos (by decide), silent]
  rfl

/-- The request carries the rules, the turns in order and the message, in the
form of its vendor, and the user and the assistant take turns in it. -/
def Request.Carries (turns : Transcript) (message : Message) : Request → Prop
  | .openAI _ messages =>
      messages = rulesMessage :: exchanges turns message ∧
        messages.length = 2 * turns.length + 2 ∧
        messages.map Message.role = .system :: speakers turns.length
  | .anthropic _ _ system messages =>
      system = systemPrompt ∧ messages = exchanges turns message ∧
        messages.length = 2 * turns.length + 1 ∧
        (∀ said ∈ messages, said.role ≠ .system) ∧
        messages.map Message.role = speakers turns.length

theorem carries_request
    (vendor : Vendor)
    (model : String)
    {turns : Transcript}
    {message : Message}
    (spoken : ∀ turn ∈ turns, turn.IsDialogue)
    (asked : message.role = .user) :
    (vendor.request model (prompt turns message)).Carries turns message := by
  have roles := map_role_exchanges spoken asked
  cases vendor with
  | openAI =>
      refine ⟨prompt_eq turns message, ?_, ?_⟩
      · rw [prompt_eq, List.length_cons, length_exchanges]
      · rw [prompt_eq, List.map_cons, roles]
        rfl
  | anthropic =>
      simp only [Vendor.request, Request.Carries, dialogue_prompt spoken asked,
        systemText_prompt spoken asked, length_exchanges, true_and]
      exact ⟨fun said found => role_ne_system_of_mem_exchanges spoken asked found,
        roles⟩

/-- Both vendors get the same messages, but for the rules. -/
theorem requests_alike
    (model : String)
    {turns : Transcript}
    {message : Message}
    (spoken : ∀ turn ∈ turns, turn.IsDialogue)
    (asked : message.role = .user) :
    ∃ messages,
      Vendor.openAI.request model (prompt turns message) =
        .openAI model (rulesMessage :: messages) ∧
      Vendor.anthropic.request model (prompt turns message) =
        .anthropic model replyTokens systemPrompt messages := by
  refine ⟨exchanges turns message, ?_, ?_⟩
  · rw [Vendor.request, prompt_eq]
  · rw [Vendor.request, dialogue_prompt spoken asked,
      systemText_prompt spoken asked]

/-! ## Revisions -/

/-- A revision is made from the reply to the one request for it. -/
theorem Vendor.outcome_revise
    (vendor : Vendor)
    (inquiry : Inquiry)
    (turns : Transcript)
    (now : Moment)
    (channel : Channel) :
    (vendor.revise inquiry turns now channel).outcome =
      (vendor.replyText (channel
        (vendor.request inquiry.model (inquiry.conversation turns)))).bind
          fun reply =>
            match shaderOf reply with
            | none => .error (.chat .noShader)
            | some shader => .ok (inquiry.turn now shader) := by
  rw [Vendor.revise, Interaction.outcome_bind, Vendor.outcome_call]
  congr
  funext reply
  cases shaderOf reply <;> rfl

/-- For a revision one request is sent, whatever comes back. -/
theorem Vendor.deeds_revise
    (vendor : Vendor)
    (inquiry : Inquiry)
    (turns : Transcript)
    (now : Moment)
    (channel : Channel) :
    (vendor.revise inquiry turns now channel).run.deeds =
      [vendor.request inquiry.model (inquiry.conversation turns)] := by
  rw [Vendor.revise, Interaction.deeds_bind, Vendor.deeds_call]
  cases (vendor.call inquiry.model (inquiry.conversation turns)
      channel).outcome with
  | error problem => rfl
  | ok reply =>
      simp only [Except.toOption, Option.elim_some]
      cases shaderOf reply <;> rfl

/-- What a request for the next revision leads to: without a vendor nothing is
sent, and a vendor is sent one request. -/
theorem value_fetch
    (clients : List Vendor)
    (inquiry : Inquiry)
    (turns : Transcript)
    (now : Moment)
    (channel : Channel) :
    (fetch clients inquiry turns now channel).value =
      match provider inquiry.model clients with
      | .error error => ⟨[], .error (.chat error)⟩
      | .ok vendor =>
          ⟨[vendor.request inquiry.model (inquiry.conversation turns)],
            (vendor.revise inquiry turns now channel).outcome⟩ := by
  unfold fetch ask
  cases provider inquiry.model clients with
  | error error => rfl
  | ok vendor =>
      dsimp only
      rw [Vendor.deeds_revise]
      rfl

end Chat
end ShaderLift
