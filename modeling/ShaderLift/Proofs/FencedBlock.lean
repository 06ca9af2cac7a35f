import ShaderLift.Proofs.Conversation
import ShaderLift.Proofs.FormattedCode

/-!
# The block of shader code in a reply

A reply may hold several fences, overlapping ones among them.  The shader that is
read from it stands in the block that starts leftmost and is longest, and a reply
without a block is refused.  The message that records a shader is a reply of this
kind: whatever fences the shader itself holds, it is read back from its record.
-/

namespace ShaderLift
namespace Chat

open Text

/-! ## Where a mark stands -/

/-- The mark stands in the text behind so many characters. -/
def StandsAt (mark text : List Char) (index : Nat) : Prop :=
  ∃ before after, text = before ++ (mark ++ after) ∧ before.length = index

/-- The first place of the mark in the text. -/
structure IsFirstPlace (mark text : List Char) (index : Nat) : Prop where
  stands : StandsAt mark text index
  least : ∀ other, StandsAt mark text other → index ≤ other

/-- The last place of the mark in the text. -/
structure IsLastPlace (mark text : List Char) (index : Nat) : Prop where
  stands : StandsAt mark text index
  greatest : ∀ other, StandsAt mark text other → other ≤ index

/-- A mark stands at the front of a text, or where it stands in the rest. -/
theorem standsAt_cons_iff
    (mark : List Char)
    (c : Char)
    (rest : List Char)
    (index : Nat) :
    StandsAt mark (c :: rest) index ↔
      (index = 0 ∧ (dropExact mark (c :: rest)).isSome) ∨
        ∃ place, index = place + 1 ∧ StandsAt mark rest place := by
  constructor
  · rintro ⟨before, after, divided, rfl⟩
    cases before with
    | nil =>
        have dropped := (dropExact_eq_some_iff mark (c :: rest) after).mpr divided
        exact Or.inl ⟨rfl, by simp [dropped]⟩
    | cons d before =>
        obtain ⟨-, divided⟩ := List.cons.inj divided
        exact Or.inr ⟨before.length, rfl, before, after, divided, rfl⟩
  · rintro (⟨rfl, starts⟩ | ⟨place, rfl, before, after, rfl, rfl⟩)
    · obtain ⟨after, dropped⟩ := Option.isSome_iff_exists.mp starts
      have divided := (dropExact_eq_some_iff _ _ _).mp dropped
      exact ⟨[], after, divided, rfl⟩
    · exact ⟨c :: before, after, rfl, rfl⟩

theorem standsAt_nil_iff
    (mark : List Char)
    (index : Nat) : StandsAt mark [] index ↔ index = 0 ∧ mark = [] := by
  constructor
  · rintro ⟨before, after, divided, rfl⟩
    obtain ⟨rfl, rest⟩ := List.append_eq_nil_iff.mp divided.symm
    exact ⟨rfl, (List.append_eq_nil_iff.mp rest).1⟩
  · rintro ⟨rfl, rfl⟩
    exact ⟨[], [], rfl, rfl⟩

/-- Behind the front of a text, a mark stands where it stands in the rest. -/
theorem standsAt_append_iff
    (mark front rest : List Char)
    (index : Nat) :
    StandsAt mark (front ++ rest) (front.length + index) ↔
      StandsAt mark rest index := by
  constructor
  · rintro ⟨before, after, divided, place⟩
    have start : front <+: before :=
      List.prefix_of_prefix_length_le (List.prefix_append front rest)
        ⟨mark ++ after, divided.symm⟩ (by omega)
    obtain ⟨middle, rfl⟩ := start
    rw [List.append_assoc] at divided
    rw [List.length_append, Nat.add_left_cancel_iff] at place
    exact ⟨middle, after, List.append_cancel_left divided, place⟩
  · rintro ⟨before, after, rfl, rfl⟩
    exact ⟨front ++ before, after, (List.append_assoc ..).symm,
      List.length_append⟩

/-- What follows the first place of a mark. -/
theorem afterFirst_cases (mark text : List Char) :
    (∃ before after, afterFirst mark text = some after ∧
      text = before ++ (mark ++ after) ∧
      IsFirstPlace mark text before.length) ∨
    afterFirst mark text = none ∧ ∀ index, ¬ StandsAt mark text index := by
  induction text with
  | nil =>
      cases mark with
      | nil =>
          refine Or.inl ⟨[], [], rfl, rfl, ⟨[], [], rfl, rfl⟩, ?_⟩
          exact fun _ _ => Nat.zero_le _
      | cons m ms =>
          refine Or.inr ⟨rfl, fun index stands => ?_⟩
          exact absurd ((standsAt_nil_iff _ _).mp stands).2 (by simp)
  | cons c rest inductionHypothesis =>
      cases dropped : dropExact mark (c :: rest) with
      | some after =>
          have divided := (dropExact_eq_some_iff _ _ _).mp dropped
          refine Or.inl ⟨[], after, by rw [afterFirst, dropped], divided, ?_⟩
          exact ⟨⟨[], after, divided, rfl⟩, fun _ _ => Nat.zero_le _⟩
      | none =>
          have behind : ∀ index, StandsAt mark (c :: rest) index ↔
              ∃ place, index = place + 1 ∧ StandsAt mark rest place := by
            intro index
            rw [standsAt_cons_iff, dropped]
            simp
          rw [afterFirst, dropped]
          rcases inductionHypothesis with
            ⟨before, after, found, rfl, first⟩ | ⟨missing, nowhere⟩
          · refine Or.inl ⟨c :: before, after, found, rfl, ?_, ?_⟩
            · exact (behind _).mpr ⟨before.length, rfl, first.stands⟩
            · intro other stands
              obtain ⟨place, rfl, inRest⟩ := (behind _).mp stands
              exact Nat.succ_le_succ (first.least place inRest)
          · refine Or.inr ⟨missing, fun index stands => ?_⟩
            obtain ⟨place, -, stands⟩ := (behind _).mp stands
            exact nowhere place stands

/-- What comes before the last place of a mark. -/
theorem beforeLast_cases (mark text : List Char) :
    (∃ before after, beforeLast mark text = some before ∧
      text = before ++ (mark ++ after) ∧
      IsLastPlace mark text before.length) ∨
    beforeLast mark text = none ∧ ∀ index, ¬ StandsAt mark text index := by
  induction text with
  | nil =>
      cases mark with
      | nil =>
          refine Or.inl ⟨[], [], rfl, rfl, ⟨[], [], rfl, rfl⟩, ?_⟩
          intro other stands
          exact ((standsAt_nil_iff _ _).mp stands).1.le
      | cons m ms =>
          refine Or.inr ⟨rfl, fun index stands => ?_⟩
          exact absurd ((standsAt_nil_iff _ _).mp stands).2 (by simp)
  | cons c rest inductionHypothesis =>
      rcases inductionHypothesis with
        ⟨before, after, found, rfl, last⟩ | ⟨missing, nowhere⟩
      · refine Or.inl ⟨c :: before, after, by rw [beforeLast, found], rfl, ?_, ?_⟩
        · exact ⟨c :: before, after, rfl, rfl⟩
        · intro other stands
          rcases (standsAt_cons_iff _ _ _ _).mp stands with
            ⟨rfl, -⟩ | ⟨place, rfl, inRest⟩
          · exact Nat.zero_le _
          · exact Nat.succ_le_succ (last.greatest place inRest)
      · have front : ∀ index, StandsAt mark (c :: rest) index ↔
            index = 0 ∧ (dropExact mark (c :: rest)).isSome := by
          intro index
          rw [standsAt_cons_iff, or_iff_left]
          rintro ⟨place, -, stands⟩
          exact nowhere place stands
        rw [beforeLast, missing]
        cases dropped : dropExact mark (c :: rest) with
        | some after =>
            have divided := (dropExact_eq_some_iff _ _ _).mp dropped
            refine Or.inl ⟨[], after, rfl, divided, ⟨[], after, divided, rfl⟩, ?_⟩
            exact fun other stands => ((front other).mp stands).1.le
        | none =>
            refine Or.inr ⟨rfl, fun index stands => ?_⟩
            have starts := ((front index).mp stands).2
            rw [dropped] at starts
            contradiction

/-! ## Blocks -/

/-- A block of shader code between two texts: an opening mark, at least one
character, and a closing mark. -/
structure IsBlock (text before content after : List Char) : Prop where
  divided : text = before ++ (shaderFence.toList ++
    (content ++ (fence.toList ++ after)))
  present : content ≠ []

/-- The block that is read: none starts further left, and of those that start
here none is longer. -/
structure IsChosenBlock (text before content after : List Char) : Prop
    extends IsBlock text before content after where
  leftmost : ∀ before' content' after', IsBlock text before' content' after' →
    before.length ≤ before'.length
  longest : ∀ content' after', IsBlock text before content' after' →
    content'.length ≤ content.length

@[simp] theorem length_shaderFence : shaderFence.toList.length = 7 := by
  decide

@[simp] theorem length_fence : fence.toList.length = 3 := by
  decide

namespace IsBlock

theorem standsAt_shaderFence
    {text before content after : List Char}
    (block : IsBlock text before content after) :
    StandsAt shaderFence.toList text before.length :=
  ⟨before, content ++ (fence.toList ++ after), block.divided, rfl⟩

theorem standsAt_fence
    {text before content after : List Char}
    (block : IsBlock text before content after) :
    StandsAt fence.toList text (before.length + 7 + content.length) := by
  refine ⟨before ++ (shaderFence.toList ++ content), after, ?_, ?_⟩
  · rw [block.divided]
    simp only [List.append_assoc]
  · simp only [List.length_append, length_shaderFence]
    omega

end IsBlock

/-- Two marks far enough from each other bound a block. -/
theorem isBlock_of_standsAt
    {text : List Char}
    {first last : Nat}
    (opens : StandsAt shaderFence.toList text first)
    (closes : StandsAt fence.toList text last)
    (apart : first + 8 ≤ last) :
    ∃ before content after, IsBlock text before content after ∧
      before.length = first ∧ first + 7 + content.length = last := by
  obtain ⟨before, rest, divided, rfl⟩ := opens
  obtain ⟨whole, after, closed, rfl⟩ := closes
  have opened : before ++ shaderFence.toList <+: text :=
    ⟨rest, by rw [divided, List.append_assoc]⟩
  have start : before ++ shaderFence.toList <+: whole := by
    refine List.prefix_of_prefix_length_le opened
      ⟨fence.toList ++ after, closed.symm⟩ ?_
    simp only [List.length_append, length_shaderFence]
    omega
  obtain ⟨content, rfl⟩ := start
  simp only [List.length_append, length_shaderFence] at apart
  refine ⟨before, content, after, ⟨?_, ?_⟩, rfl, ?_⟩
  · rw [closed]
    simp only [List.append_assoc]
  · rintro rfl
    simp at apart
  · simp only [List.length_append, length_shaderFence]

/-- There is a block exactly if the last closing mark stands at least eight
characters behind the first opening mark. -/
theorem exists_isBlock_iff (text : List Char) :
    (∃ before content after, IsBlock text before content after) ↔
      ∃ first last, IsFirstPlace shaderFence.toList text first ∧
        IsLastPlace fence.toList text last ∧ first + 8 ≤ last := by
  constructor
  · rintro ⟨before, content, after, block⟩
    rcases afterFirst_cases shaderFence.toList text with
      ⟨opening, -, -, -, first⟩ | ⟨-, nowhere⟩
    · rcases beforeLast_cases fence.toList text with
        ⟨inside, -, -, -, last⟩ | ⟨-, nowhere⟩
      · refine ⟨opening.length, inside.length, first, last, ?_⟩
        have present := List.length_pos_iff.mpr block.present
        have left := first.least _ block.standsAt_shaderFence
        have right := last.greatest _ block.standsAt_fence
        omega
      · exact absurd block.standsAt_fence (nowhere _)
    · exact absurd block.standsAt_shaderFence (nowhere _)
  · rintro ⟨first, last, opens, closes, apart⟩
    obtain ⟨before, content, after, block, -⟩ :=
      isBlock_of_standsAt opens.stands closes.stands apart
    exact ⟨before, content, after, block⟩

/-- The first opening mark and the last closing mark bound the block that is
read. -/
theorem IsBlock.isChosenBlock
    {text before content after : List Char}
    (block : IsBlock text before content after)
    (first : IsFirstPlace shaderFence.toList text before.length)
    (last : IsLastPlace fence.toList text
      (before.length + 7 + content.length)) :
    IsChosenBlock text before content after where
  toIsBlock := block
  leftmost := by
    intro before' content' after' other
    exact first.least _ other.standsAt_shaderFence
  longest := by
    intro content' after' other
    have bound := last.greatest _ other.standsAt_fence
    omega

/-- One block at most is read. -/
theorem IsChosenBlock.unique
    {text before before' content content' after after' : List Char}
    (chosen : IsChosenBlock text before content after)
    (other : IsChosenBlock text before' content' after') :
    before = before' ∧ content = content' := by
  have same := chosen.divided.symm.trans other.divided
  have lengths : before.length = before'.length :=
    Nat.le_antisymm (chosen.leftmost _ _ _ other.toIsBlock)
      (other.leftmost _ _ _ chosen.toIsBlock)
  obtain ⟨rfl, rest⟩ := List.append_inj same lengths
  have inside := List.append_cancel_left rest
  have contents : content.length = content'.length :=
    Nat.le_antisymm (other.longest _ _ chosen.toIsBlock)
      (chosen.longest _ _ other.toIsBlock)
  exact ⟨rfl, (List.append_inj inside contents).1⟩

/-! ## Reading a block -/

/-- A mark far enough behind an opening mark stands in what follows the first
character of the content. -/
theorem standsAt_behind
    {mark text before rest : List Char}
    {c : Char}
    {index : Nat}
    (divided : text = before ++ (shaderFence.toList ++ c :: rest))
    (far : before.length + 8 ≤ index)
    (stands : StandsAt mark text index) :
    StandsAt mark rest (index - (before.length + 8)) := by
  have parted : text = (before ++ (shaderFence.toList ++ [c])) ++ rest := by
    rw [divided]
    simp only [List.append_assoc, List.singleton_append]
  have long : (before ++ (shaderFence.toList ++ [c])).length =
      before.length + 8 := by
    simp only [List.length_append, length_shaderFence, List.length_singleton]
  rw [← standsAt_append_iff mark (before ++ (shaderFence.toList ++ [c])),
    ← parted, long, Nat.add_sub_cancel' far]
  exact stands

/-- The content that is read is that of the chosen block, and there is one if
there is a block at all. -/
theorem fencedBlock_cases (text : List Char) :
    (∃ before content after, fencedBlock text = some content ∧
      IsChosenBlock text before content after) ∨
    fencedBlock text = none ∧
      ∀ before content after, ¬ IsBlock text before content after := by
  rcases afterFirst_cases shaderFence.toList text with
    ⟨before, rest, found, divided, first⟩ | ⟨missing, nowhere⟩
  · cases rest with
    | nil =>
        -- The opening mark ends the text, so no block starts there or later.
        refine Or.inr ⟨by rw [fencedBlock, found], ?_⟩
        intro before' content after other
        have left := first.least _ other.standsAt_shaderFence
        have lengths := congrArg List.length (divided.symm.trans other.divided)
        simp only [List.length_append, length_shaderFence, length_fence,
          List.length_nil] at lengths
        omega
    | cons c rest =>
        -- A closing mark counts only behind the first character of the content.
        rcases beforeLast_cases fence.toList rest with
          ⟨inside, after, cut, rfl, last⟩ | ⟨missing, nowhere⟩
        · have block : IsBlock text before (c :: inside) after :=
            ⟨divided, List.cons_ne_nil c inside⟩
          have read : fencedBlock text = some (c :: inside) := by
            simp only [fencedBlock, found, cut, Option.map_some]
          refine Or.inl ⟨before, c :: inside, after, read,
            block.isChosenBlock first ⟨block.standsAt_fence, ?_⟩⟩
          intro other stands
          rw [List.length_cons]
          by_cases far : before.length + 8 ≤ other
          · have bound := last.greatest _ (standsAt_behind divided far stands)
            omega
          · omega
        · have refused : fencedBlock text = none := by
            simp only [fencedBlock, found, missing, Option.map_none]
          refine Or.inr ⟨refused, fun before' content after other => ?_⟩
          have left := first.least _ other.standsAt_shaderFence
          have present := List.length_pos_iff.mpr other.present
          exact nowhere _
            (standsAt_behind divided (by omega) other.standsAt_fence)
  · refine Or.inr ⟨by rw [fencedBlock, missing], ?_⟩
    intro before content after block
    exact nowhere _ block.standsAt_shaderFence

/-- What is read from a reply is the content of the chosen block without the
blanks around it. -/
theorem shaderOf_eq_some_iff (reply shader : String) :
    shaderOf reply = some shader ↔
      ∃ before content after,
        IsChosenBlock reply.toList before content after ∧
          shader = String.ofList (trim content) := by
  rw [shaderOf]
  rcases fencedBlock_cases reply.toList with
    ⟨before, content, after, read, chosen⟩ | ⟨refused, nothing⟩
  · rw [read, Option.map_some, Option.some_inj]
    constructor
    · rintro rfl
      exact ⟨before, content, after, chosen, rfl⟩
    · rintro ⟨before', content', after', other, rfl⟩
      rw [(chosen.unique other).2]
  · rw [refused, Option.map_none]
    constructor
    · intro read
      contradiction
    · rintro ⟨before, content, after, chosen, -⟩
      exact absurd chosen.toIsBlock (nothing _ _ _)

theorem shaderOf_eq_none_iff (reply : String) :
    shaderOf reply = none ↔
      ¬ ∃ before content after, IsBlock reply.toList before content after := by
  rw [shaderOf, Option.map_eq_none_iff]
  rcases fencedBlock_cases reply.toList with
    ⟨before, content, after, read, chosen⟩ | ⟨refused, nothing⟩
  · rw [read]
    exact iff_of_false (by simp) (not_not_intro ⟨_, _, _, chosen.toIsBlock⟩)
  · refine iff_of_true refused ?_
    rintro ⟨before, content, after, block⟩
    exact nothing _ _ _ block

/-- A shader is read from a reply exactly if the reply holds a block, or, what is
the same, if its last closing mark stands at least eight characters behind its
first opening mark.  It is then the content of the leftmost and longest block
without the blanks around it, and a revision is refused for want of a shader
exactly if the reply to it holds no block. -/
theorem shaderOf_reads_chosen_block (reply : String) :
    let text := reply.toList
    let holdsBlock := ∃ before content after, IsBlock text before content after
    ((shaderOf reply).isSome ↔ holdsBlock) ∧
    (∀ shader, shaderOf reply = some shader ↔
      ∃ before content after, IsChosenBlock text before content after ∧
        shader = String.ofList (trim content)) ∧
    ((shaderOf reply).isSome ↔
      ∃ first last, IsFirstPlace shaderFence.toList text first ∧
        IsLastPlace fence.toList text last ∧ first + 8 ≤ last) ∧
    ∀ vendor : Vendor, ∀ inquiry turns now channel,
      vendor.replyText (channel (vendor.request inquiry.model
        (inquiry.conversation turns))) = .ok reply →
      ((vendor.revise inquiry turns now channel).outcome =
        .error (.chat .noShader) ↔ ¬ holdsBlock) := by
  intro text holdsBlock
  have success : (shaderOf reply).isSome ↔ holdsBlock := by
    rw [Option.isSome_iff_ne_none, ne_eq, shaderOf_eq_none_iff, not_not]
  refine ⟨success, shaderOf_eq_some_iff reply,
    success.trans (exists_isBlock_iff text), ?_⟩
  intro vendor inquiry turns now channel replied
  rw [Vendor.outcome_revise, replied, ← shaderOf_eq_none_iff]
  cases held : shaderOf reply with
  | none => simp [Except.bind, held]
  | some shader => simp [Except.bind, held]

/-- Of overlapping fences the outer ones count: the block starts with the second
mark of the first four and ends with the second mark of the last four.  With
nothing between two fences there is no block. -/
theorem shaderOf_reads_chosen_block_overlappingFences :
    let reply := "````glsl a ``` b ````"
    let inquiry : Inquiry := ⟨"m", "void main() {}", "Make it blue"⟩
    let now : Moment := ⟨⟨2024, 1, 2⟩, 3, 4, 5, 0, some 0⟩
    let channel : Channel := fun _ => .blocks [⟨"text", "```glsl```"⟩]
    shaderOf reply = some "a ``` b `" ∧
    (∃ before content after,
      IsChosenBlock reply.toList before content after ∧
        "a ``` b `" = String.ofList (trim content)) ∧
    (Vendor.anthropic.revise inquiry [] now channel).outcome =
      .error (.chat .noShader) := by
  intro reply inquiry now channel
  have read : shaderOf reply = some "a ``` b `" := by decide
  have empty : ¬ ∃ before content after,
      IsBlock "```glsl```".toList before content after := by
    rw [← (shaderOf_reads_chosen_block "```glsl```").1]
    decide
  exact ⟨read, ((shaderOf_reads_chosen_block reply).2.1 _).mp read,
    ((shaderOf_reads_chosen_block "```glsl```").2.2.2 .anthropic inquiry [] now
      channel rfl).mpr empty⟩

/-! ## Records of shaders -/

theorem isBlank_lineEnd : ∀ c ∈ ['\n'], isBlank c = true := by
  simp [isBlank]

/-- The words before the shader in a record. -/
def recordHeading : List Char :=
  "Assistant generated shader code:\n".toList

/-- A record is a heading and a block that ends the message. -/
theorem toList_content_assistantMessage (code : String) :
    (assistantMessage code).content.toList =
      recordHeading ++ (shaderFence.toList ++
        (['\n'] ++ code.toList ++ ['\n'] ++ (fence.toList ++ []))) := by
  have heading : "\nAssistant generated shader code:\n".toList =
      ['\n'] ++ recordHeading := rfl
  have newline : "\n".toList = ['\n'] := rfl
  rw [assistantMessage, toList_trimmed, shaderBlock]
  simp only [String.toList_append, heading, newline, List.append_assoc,
    List.append_nil]
  rw [Shader.trim_blank_append isBlank_lineEnd]
  simp only [← List.append_assoc]
  rw [Shader.trim_append_blank isBlank_lineEnd, trim_of_visible_ends]
  · rintro c ⟨⟩
    decide
  · rw [List.getLast?_append_of_ne_nil _ (by decide)]
    rintro c ⟨⟩
    decide

/-- No opening mark stands before the one behind the heading. -/
theorem isFirstPlace_recordHeading (rest : List Char) :
    IsFirstPlace shaderFence.toList
      (recordHeading ++ (shaderFence.toList ++ rest)) recordHeading.length := by
  refine ⟨⟨recordHeading, rest, rfl, rfl⟩, ?_⟩
  rintro other ⟨before, after, divided, rfl⟩
  rcases List.append_eq_append_iff.mp divided with
    ⟨middle, rfl, -⟩ | ⟨middle, inside, opened⟩
  · simp
  · cases middle with
    | nil => simp [inside]
    | cons c middle =>
        -- The heading would hold the first character of the mark.
        have mark : c ∈ fence.toList := by
          rw [← (List.cons.inj opened).1]
          decide
        have apart : recordHeading.all (!fence.toList.contains ·) := by decide
        have other := List.all_eq_true.mp apart c (by simp [inside])
        simp [mark] at other

/-- A shader is read back from its record, but for the blanks around it. -/
theorem shaderOf_assistantMessage (code : String) :
    shaderOf (assistantMessage code).content = some (trimmed code) := by
  have written := toList_content_assistantMessage code
  have block : IsBlock (assistantMessage code).content.toList recordHeading
      (['\n'] ++ code.toList ++ ['\n']) [] :=
    ⟨written, by simp⟩
  refine (shaderOf_eq_some_iff _ _).mpr
    ⟨_, _, _, block.isChosenBlock ?first ⟨block.standsAt_fence, ?last⟩, ?same⟩
  case first =>
    rw [written]
    exact isFirstPlace_recordHeading _
  case last =>
    -- The last mark ends the message, so none stands behind it.
    rintro other ⟨before, after, divided, rfl⟩
    have lengths := congrArg List.length (written.symm.trans divided)
    simp only [List.length_append, length_shaderFence, length_fence,
      List.length_nil] at lengths ⊢
    omega
  case same =>
    rw [Shader.trim_append_blank isBlank_lineEnd,
      Shader.trim_blank_append isBlank_lineEnd]
    rfl

/-- A revision is fetched only from a vendor whose reply holds its shader. -/
theorem exists_reply_of_fetch
    {clients : List Vendor}
    {inquiry : Inquiry}
    {turns : Transcript}
    {now : Moment}
    {channel : Channel}
    {turn : Turn}
    (fetched : (fetch clients inquiry turns now channel).value.result = .ok turn) :
    ∃ reply shader, shaderOf reply = some shader ∧
      turn = inquiry.turn now shader := by
  rw [value_fetch] at fetched
  cases served : provider inquiry.model clients with
  | error error =>
      rw [served] at fetched
      contradiction
  | ok vendor =>
      rw [served] at fetched
      have revised := (Vendor.outcome_revise ..).symm.trans fetched
      obtain ⟨reply, -, answered⟩ := bind_eq_ok_iff.mp revised
      cases held : shaderOf reply with
      | none =>
          rw [held] at answered
          contradiction
      | some shader =>
          rw [held] at answered
          exact ⟨reply, shader, held, (Except.ok.inj answered).symm⟩

/-- A shader that is read from a reply has no blanks around it. -/
theorem trimmed_of_shaderOf
    {reply shader : String}
    (held : shaderOf reply = some shader) : trimmed shader = shader := by
  obtain ⟨before, content, after, -, rfl⟩ :=
    (shaderOf_eq_some_iff reply shader).mp held
  rw [trimmed, String.toList_ofList, Shader.trim_trim]

/-- Every shader is read back from its record without the blanks around it,
whatever fences it holds, and the record in a revision gives back the shader of
that revision, whatever the vendor replied. -/
theorem recorded_shader_read_back :
    (∀ code, shaderOf (assistantMessage code).content = some (trimmed code)) ∧
    ∀ clients inquiry turns now channel turn,
      (fetch clients inquiry turns now channel).value.result = .ok turn →
        shaderOf turn.assistantMessage.content = some turn.shaderSource := by
  refine ⟨shaderOf_assistantMessage, ?_⟩
  intro clients inquiry turns now channel turn fetched
  obtain ⟨reply, shader, held, rfl⟩ := exists_reply_of_fetch fetched
  have recorded := shaderOf_assistantMessage shader
  rw [trimmed_of_shaderOf held] at recorded
  exact recorded

/-- A vendor that replies with two blocks and a loose fence has all of it
recorded and read back. -/
theorem recorded_shader_read_back_twoBlocks :
    let reply := "Here:\n```glsl\na;\n```\nand\n```glsl\nb;\n````\nEnjoy!"
    let shader := "a;\n```\nand\n```glsl\nb;\n`"
    let inquiry : Inquiry := ⟨"gpt-4-turbo", "void main() {}", "Make it blue"⟩
    let now : Moment := ⟨⟨2024, 1, 2⟩, 3, 4, 5, 0, some 0⟩
    let channel : Channel := fun _ => .choices [some reply]
    ∃ turn, (fetch [.openAI] inquiry [] now channel).value.result = .ok turn ∧
      turn.shaderSource = shader ∧
      shaderOf turn.assistantMessage.content = some turn.shaderSource := by
  intro reply shader inquiry now channel
  have held : shaderOf reply = some shader := by decide
  have fetched : (fetch [.openAI] inquiry [] now channel).value.result =
      .ok (inquiry.turn now shader) := by
    have replied : Vendor.openAI.replyText (channel (Vendor.openAI.request
        inquiry.model (inquiry.conversation []))) = .ok reply := rfl
    rw [value_fetch]
    change (Vendor.openAI.revise inquiry [] now channel).outcome = _
    rw [Vendor.outcome_revise, replied, Except.bind, held]
  exact ⟨_, fetched, rfl, recorded_shader_read_back.2 _ _ _ _ _ _ fetched⟩

end Chat
end ShaderLift
