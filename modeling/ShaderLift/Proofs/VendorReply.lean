import ShaderLift.Chat.Call
import ShaderLift.Proofs.Attempt

/-!
# What a call to a vendor comes to

Two vendors reply in two forms, and both are read by the same rules: a text that
is not empty is handed on, everything else is an error whose class tells the
caller what to do.  Two outcomes slip through: a failure that is no error of the
vendor's library is passed on as it is, and an empty part of a reply is handed
on as a text.  Every other outcome is read by the rules, and on outcomes that
correspond the two vendors agree.
-/

namespace ShaderLift
namespace Chat

/-! ## Classes of errors -/

/-- The classes by which a caller tells errors apart. -/
inductive ErrorClass
  | recoverable
  | unrecoverable
  /-- The reply has no text. -/
  | emptyReply
  /-- The reply has no shader. -/
  | unreadableReply
deriving Repr, DecidableEq

/-- The class of an error. -/
def ChatError.errorClass (error : ChatError) : ErrorClass :=
  match error with
  | .noShader => .unreadableReply
  | .noText _ => .emptyReply
  | _ => if error.isRecoverable then .recoverable else .unrecoverable

/-- What a status leads to depends on its code alone. -/
theorem ChatError.errorClass_ofStatus
    (code : Option Int)
    (left right : String) :
    (ofStatus code left).errorClass = (ofStatus code right).errorClass ∧
      (ofStatus code left).isRecoverable =
        (ofStatus code right).isRecoverable := by
  unfold ofStatus
  cases StatusCause.ofCode code <;> exact ⟨rfl, rfl⟩

/-! ## Outcomes -/

namespace Outcome

/-- The outcome is a reply rather than an error. -/
def IsReply : Outcome → Prop
  | .choices _ => True
  | .blocks _ => True
  | _ => False

/-- The text of a reply: its first alternative, or its first part if that is a
text. -/
def text? : Outcome → Option String
  | .choices (content :: _) => content
  | .blocks (block :: _) => if block.kind = "text" then some block.text else none
  | _ => none

/-- The outcome is read against the rules. -/
def SlipsThrough : Outcome → Prop
  | .crashed _ => True
  | .blocks (block :: _) => block.kind = "text" ∧ block.text = ""
  | _ => False

/-- The same thing happened at the first vendor and at the second one. -/
inductive Corresponds : Outcome → Outcome → Prop
  | reply (choices : List (Option String)) (blocks : List Block)
      (same : (Outcome.choices choices).text? = (Outcome.blocks blocks).text?) :
      Corresponds (.choices choices) (.blocks blocks)
  | status (code : Int) (left right : String) :
      Corresponds (.status code left) (.status code right)
  | disconnected (left right : String) :
      Corresponds (.disconnected left) (.disconnected right)
  | refused (left right : String) :
      Corresponds (.refused left) (.refused right)
  | crashed (left right : String) :
      Corresponds (.crashed left) (.crashed right)

end Outcome

/-- The vendor replies in this form. -/
def Vendor.Gives : Vendor → Outcome → Prop
  | .openAI, .blocks _ => False
  | .anthropic, .choices _ => False
  | _, _ => True

/-! ## The rules -/

/-- The result of a call follows the rules for its outcome. -/
structure FollowsRules
    (outcome : Outcome)
    (result : Except CallError String) : Prop where
  /-- There is a text that is not empty, or an error with a class. -/
  settled :
    (∃ text, text ≠ "" ∧ result = .ok text) ∨
      ∃ error, result = .error (.chat error)
  /-- A text that is not empty is handed on. -/
  handedOn : ∀ text, outcome.text? = some text → text ≠ "" → result = .ok text
  /-- A reply without a text is an error of its own class, and so is an empty
  text. -/
  emptyReply : outcome.IsReply → outcome.text?.getD "" = "" →
    ∃ error, result = .error (.chat error) ∧ error.errorClass = .emptyReply
  /-- An unexpected error is reported with its text. -/
  unexpected : ∀ detail,
    outcome = .refused detail ∨ outcome = .crashed detail →
    ∃ error, result = .error (.chat error) ∧
      error.errorClass = .unrecoverable ∧
      error.message = "Unknown Error: " ++ detail

/-- Two calls come to the same text, or to errors of the same class. -/
inductive Agree : Except CallError String → Except CallError String → Prop
  | text (text : String) : Agree (.ok text) (.ok text)
  | error (left right : ChatError)
      (sameClass : left.errorClass = right.errorClass)
      (sameAdvice : left.isRecoverable = right.isRecoverable) :
      Agree (.error (.chat left)) (.error (.chat right))

@[simp] theorem Vendor.outcome_call
    (vendor : Vendor)
    (model : String)
    (messages : List Message)
    (channel : Channel) :
    (vendor.call model messages channel).outcome =
      vendor.replyText (channel (vendor.request model messages)) := by
  simp [Vendor.call, Channel.send, Except.bind]

/-- A call sends its request, whatever comes back. -/
@[simp] theorem Vendor.deeds_call
    (vendor : Vendor)
    (model : String)
    (messages : List Message)
    (channel : Channel) :
    (vendor.call model messages channel).run.deeds =
      [vendor.request model messages] := by
  rfl

/-! ## Replies -/

/-- The first vendor's replies are read by the rules. -/
theorem replyText_choices (contents : List (Option String)) :
    Vendor.openAI.replyText (.choices contents) =
      if (Outcome.choices contents).text?.getD "" = "" then
        .error (.chat (.noText .openAI))
      else .ok ((Outcome.choices contents).text?.getD "") := by
  match contents with
  | [] => rfl
  | none :: rest => rfl
  | some text :: rest => rfl

/-- The second vendor's replies are handed on even where the text is empty. -/
theorem replyText_blocks (contents : List Block) :
    Vendor.anthropic.replyText (.blocks contents) =
      match (Outcome.blocks contents).text? with
      | none => .error (.chat (.noText .anthropic))
      | some text => .ok text := by
  cases contents with
  | nil => rfl
  | cons block rest =>
      by_cases isText : block.kind = "text" <;>
        simp [Vendor.replyText, Outcome.text?, isText]

/-- The text of a reply in parts is empty only if it slips through. -/
theorem slipsThrough_blocks_iff (contents : List Block) :
    (Outcome.blocks contents).SlipsThrough ↔
      (Outcome.blocks contents).text? = some "" := by
  cases contents with
  | nil => simp [Outcome.SlipsThrough, Outcome.text?]
  | cons block rest => simp [Outcome.SlipsThrough, Outcome.text?]

/-- A result that is a text which is not empty, or the error of an empty reply,
follows the rules for a reply. -/
theorem followsRules_of_reply
    {outcome : Outcome}
    {result : Except CallError String}
    (vendor : Vendor)
    (isReply : outcome.IsReply)
    (read : result = if outcome.text?.getD "" = "" then
        .error (.chat (.noText vendor))
      else .ok (outcome.text?.getD "")) :
    FollowsRules outcome result := by
  subst read
  refine ⟨?settled, ?handedOn, ?emptyReply, ?unexpected⟩
  case settled =>
    by_cases empty : outcome.text?.getD "" = ""
    · exact Or.inr ⟨.noText vendor, if_pos empty⟩
    · exact Or.inl ⟨_, empty, if_neg empty⟩
  case handedOn =>
    intro text found present
    rw [found, Option.getD_some, if_neg present]
  case emptyReply =>
    intro _ empty
    exact ⟨.noText vendor, if_pos empty, rfl⟩
  case unexpected =>
    intro detail failed
    rcases failed with rfl | rfl <;> exact isReply.elim

/-- An empty part of a reply that is handed on is against the rules. -/
theorem not_followsRules_empty
    (outcome : Outcome) : ¬ FollowsRules outcome (.ok "") := by
  intro follows
  rcases follows.settled with ⟨text, present, equal⟩ | ⟨error, equal⟩
  · exact present (Except.ok.inj equal).symm
  · contradiction

/-- A failure that is passed on as it is, is against the rules. -/
theorem not_followsRules_crash
    (outcome : Outcome)
    (detail : String) : ¬ FollowsRules outcome (.error (.crash detail)) := by
  intro follows
  rcases follows.settled with ⟨text, _, equal⟩ | ⟨error, equal⟩ <;>
    cases equal

/-- A call follows the rules exactly if its outcome does not slip through. -/
theorem followsRules_replyText_iff
    {vendor : Vendor}
    {outcome : Outcome}
    (given : vendor.Gives outcome) :
    FollowsRules outcome (vendor.replyText outcome) ↔
      ¬ outcome.SlipsThrough := by
  cases outcome with
  | choices contents =>
      cases vendor with
      | anthropic => exact given.elim
      | openAI =>
          refine ⟨fun _ slips => slips, fun _ => ?_⟩
          exact followsRules_of_reply .openAI trivial (replyText_choices contents)
  | blocks contents =>
      cases vendor with
      | openAI => exact given.elim
      | anthropic =>
          rw [slipsThrough_blocks_iff, replyText_blocks]
          cases found : (Outcome.blocks contents).text? with
          | none =>
              refine ⟨fun _ => by simp, fun _ => ?_⟩
              exact followsRules_of_reply .anthropic trivial (by rw [found]; rfl)
          | some text =>
              rw [Option.some.injEq]
              by_cases empty : text = ""
              · subst empty
                simp [not_followsRules_empty]
              · refine ⟨fun _ => empty, fun _ => ?_⟩
                exact followsRules_of_reply .anthropic trivial
                  (by rw [found, Option.getD_some, if_neg empty])
  | status code detail =>
      refine ⟨fun _ slips => slips, fun _ => ?_⟩
      exact ⟨Or.inr ⟨_, rfl⟩, by simp [Outcome.text?], False.elim, by simp⟩
  | disconnected detail =>
      refine ⟨fun _ slips => slips, fun _ => ?_⟩
      exact ⟨Or.inr ⟨_, rfl⟩, by simp [Outcome.text?], False.elim, by simp⟩
  | refused detail =>
      refine ⟨fun _ slips => slips, fun _ => ?_⟩
      refine ⟨Or.inr ⟨_, rfl⟩, by simp [Outcome.text?], False.elim, ?_⟩
      rintro told (same | other)
      · cases same
        exact ⟨.unknown detail, rfl, rfl, rfl⟩
      · contradiction
  | crashed detail =>
      refine ⟨fun follows => ?_, fun escapes => absurd trivial escapes⟩
      exact absurd follows (not_followsRules_crash _ detail)

/-- The two vendors agree on outcomes that correspond, exactly if neither slips
through. -/
theorem agree_replyText_iff
    {left right : Outcome}
    (corresponds : left.Corresponds right) :
    Agree (Vendor.openAI.replyText left) (Vendor.anthropic.replyText right) ↔
      ¬ left.SlipsThrough ∧ ¬ right.SlipsThrough := by
  cases corresponds with
  | reply choices blocks same =>
      rw [replyText_choices, replyText_blocks, slipsThrough_blocks_iff, same]
      cases (Outcome.blocks blocks).text? with
      | none =>
          refine ⟨fun _ => ⟨id, by simp⟩, fun _ => ?_⟩
          exact Agree.error (.noText .openAI) (.noText .anthropic) rfl rfl
      | some text =>
          by_cases empty : text = ""
          · subst empty
            refine ⟨nofun, fun kept => absurd rfl kept.2⟩
          · rw [Option.getD_some, if_neg empty]
            exact ⟨fun _ => ⟨id, by simpa using empty⟩, fun _ => .text text⟩
  | status code left right =>
      refine ⟨fun _ => ⟨id, id⟩, fun _ => ?_⟩
      obtain ⟨sameClass, sameAdvice⟩ :=
        ChatError.errorClass_ofStatus (some code) left right
      exact Agree.error _ _ sameClass sameAdvice
  | disconnected left right =>
      exact ⟨fun _ => ⟨id, id⟩, fun _ => Agree.error _ _ rfl rfl⟩
  | refused left right =>
      exact ⟨fun _ => ⟨id, id⟩, fun _ => Agree.error _ _ rfl rfl⟩
  | crashed left right =>
      exact ⟨nofun, fun kept => absurd trivial kept.1⟩

/-! ## Calls -/

/-- For every conversation and every outcome that a vendor gives, a call follows
the rules exactly if the outcome does not slip through, and on outcomes that
correspond the calls to the two vendors agree exactly if neither slips
through. -/
theorem call_followsRules_iff
    (messages : List Message) :
    (∀ (vendor : Vendor) (model : String) (channel : Channel),
      vendor.Gives (channel (vendor.request model messages)) →
      (FollowsRules (channel (vendor.request model messages))
          (vendor.call model messages channel).outcome ↔
        ¬ (channel (vendor.request model messages)).SlipsThrough)) ∧
    (∀ (first second : String) (left right : Channel),
      (left (Vendor.openAI.request first messages)).Corresponds
        (right (Vendor.anthropic.request second messages)) →
      (Agree (Vendor.openAI.call first messages left).outcome
          (Vendor.anthropic.call second messages right).outcome ↔
        ¬ (left (Vendor.openAI.request first messages)).SlipsThrough ∧
          ¬ (right (Vendor.anthropic.request second messages)).SlipsThrough)) := by
  constructor
  · intro vendor model channel given
    rw [Vendor.outcome_call]
    exact followsRules_replyText_iff given
  · intro first second left right corresponds
    rw [Vendor.outcome_call, Vendor.outcome_call]
    exact agree_replyText_iff corresponds

/-- A reply with an empty second part, and an overloaded vendor. -/
theorem call_followsRules_iff_shortReply :
    let reply : Outcome := .blocks [⟨"text", "void main() {}"⟩, ⟨"text", ""⟩]
    let overloaded : Outcome := .status 529 "overloaded"
    FollowsRules reply (Vendor.anthropic.call "claude" []
        (fun _ => reply)).outcome ∧
      Agree (Vendor.openAI.call "gpt" [] fun _ => overloaded).outcome
        (Vendor.anthropic.call "claude" [] fun _ => overloaded).outcome := by
  intro reply overloaded
  have rules := call_followsRules_iff []
  refine ⟨(rules.1 .anthropic "claude" (fun _ => reply) trivial).mpr ?_, ?_⟩
  · exact fun slips => absurd slips.2 (by decide)
  · exact (rules.2 "gpt" "claude" (fun _ => overloaded) (fun _ => overloaded)
      (.status 529 _ _)).mpr ⟨id, id⟩

/-- The second vendor's empty text is handed on, where the first vendor's is an
error; and a failure outside the vendor's library leaves the call as it is. -/
theorem call_against_rules_emptyPart :
    let empty : Outcome := .blocks [⟨"text", ""⟩]
    let crash : Outcome := .crashed "boom"
    ¬ FollowsRules empty (Vendor.anthropic.call "claude-3-5-sonnet-20241022"
        [⟨.user, "hi"⟩] fun _ => empty).outcome ∧
      ¬ Agree
        (Vendor.openAI.call "gpt-4-turbo" [⟨.user, "hi"⟩]
          fun _ => .choices [some ""]).outcome
        (Vendor.anthropic.call "claude-3-5-sonnet-20241022" [⟨.user, "hi"⟩]
          fun _ => empty).outcome ∧
      ¬ FollowsRules crash (Vendor.openAI.call "gpt-4-turbo" [⟨.user, "hi"⟩]
        fun _ => crash).outcome := by
  intro empty crash
  refine ⟨not_followsRules_empty empty, ?_, not_followsRules_crash crash "boom"⟩
  rw [Vendor.outcome_call, Vendor.outcome_call]
  exact nofun

end Chat
end ShaderLift
