import Anemoi.Daemon.Gateway

/-!
# The gateway's token requirement

What a chat completion requires is the estimate of its prompt and the output that it asks for.
The estimate is computed in `u32`; `promptTokens` is the same estimate without a bound, and the
computed one is the smaller of it and `u32::MAX` as long as the parts of each message fit.
`requiredTokens_monotone_iff` says when a body that grows requires no less: as long as those parts
fit, and its `max_tokens` does not leave `u32`, where it is read as not given.
-/

namespace Anemoi

/-! ### Sums in `u32` -/

@[simp] theorem toNat_saturatingAdd (a b : UInt32) :
    (saturatingAdd a b).toNat = min (a.toNat + b.toNat) (2 ^ 32 - 1) := by
  rw [saturatingAdd, UInt32.toNat_ofNat_of_lt']
  change min (a.toNat + b.toNat) (2 ^ 32 - 1) < 2 ^ 32
  omega

/-- The sum of two numbers, when it does not overflow. -/
def checkedAddU32 (a b : UInt32) : Option UInt32 :=
  if a.toNat + b.toNat < 2 ^ 32 then some (a + b) else none

/-- The sum of a list from `total` on, when none of its additions overflows. -/
def checkedSumU32 (total : UInt32) : List UInt32 → Option UInt32
  | [] => some total
  | n :: rest => (checkedAddU32 total n).bind fun total => checkedSumU32 total rest

theorem toNat_add_of_lt {a b : UInt32} (h : a.toNat + b.toNat < 2 ^ 32) :
    (a + b).toNat = a.toNat + b.toNat := by
  rw [UInt32.toNat_add, Nat.mod_eq_of_lt h]

theorem isSome_checkedSumU32_iff (total : UInt32) (l : List UInt32) :
    (checkedSumU32 total l).isSome ↔ total.toNat + (l.map UInt32.toNat).sum < 2 ^ 32 := by
  induction l generalizing total with
  | nil => simpa [checkedSumU32] using total.toNat_lt
  | cons n l ih =>
      rw [checkedSumU32, checkedAddU32, List.map_cons, List.sum_cons, ← Nat.add_assoc]
      by_cases h : total.toNat + n.toNat < 2 ^ 32
      · rw [if_pos h, Option.bind_some, ih, toNat_add_of_lt h]
      · rw [if_neg h]
        simp only [Option.bind_none, Option.isSome_none, Bool.false_eq_true, false_iff]
        omega

/-- A sum that fits is not wrapped. -/
theorem toNat_sum_of_lt {l : List UInt32} (h : (l.map UInt32.toNat).sum < 2 ^ 32) :
    l.sum.toNat = (l.map UInt32.toNat).sum := by
  induction l with
  | nil => rfl
  | cons n l ih =>
      rw [List.map_cons, List.sum_cons] at h
      have hl := ih (by omega)
      rw [List.sum_cons, List.map_cons, List.sum_cons, ← hl, toNat_add_of_lt (by omega)]

/-! ### The estimate without a bound -/

/-- A token for every four characters begun. -/
def textTokens (text : String) : ℕ :=
  min (text.length + 3) (2 ^ 32 - 1) / 4

def fieldTokens (value : Json) (field : String) : ℕ :=
  (((value.get field).bind Json.asStr).map textTokens).getD 0

def partTokens : Json → ℕ
  | .string text => textTokens text
  | .object fields => fieldTokens (.object fields) "text"
  | _ => 0

def contentTokens : Option Json → ℕ
  | some (.string text) => textTokens text
  | some (.array parts) => (parts.map partTokens).sum
  | some (.object fields) => fieldTokens (.object fields) "text"
  | _ => 0

def messageTokens (message : Json) : ℕ :=
  4 + fieldTokens message "role" + fieldTokens message "name" +
    contentTokens (message.get "content")

/-- The messages of a chat completion. -/
def messagesOf (body : Json) : Option (List Json) :=
  (body.get "messages").bind Json.asArray

def promptTokens (body : Json) : Option ℕ :=
  (messagesOf body).map fun messages => 2 + (messages.map messageTokens).sum

/-- The parts of a message whose content is a list of them. -/
def partsOf (message : Json) : List Json :=
  ((message.get "content").bind Json.asArray).getD []

/-- The parts of no message exceed `u32`. -/
def SmallParts (body : Json) : Prop :=
  ∀ messages, messagesOf body = some messages → ∀ message ∈ messages,
    ((partsOf message).map partTokens).sum < 2 ^ 32

/-- No addition of the estimate overflows: those over the parts of a message are the only ones
that do not saturate. -/
def NoOverflow (body : Json) : Prop :=
  ∀ messages, messagesOf body = some messages → ∀ message ∈ messages,
    (checkedSumU32 0 ((partsOf message).map estimatePartTokens)).isSome

theorem toNat_estimateTextTokens (text : String) :
    (estimateTextTokens text).toNat = textTokens text := by
  have hchars : (UInt32.ofNat (min text.length (2 ^ 32 - 1))).toNat =
      min text.length (2 ^ 32 - 1) := by
    rw [UInt32.toNat_ofNat_of_lt']
    change min text.length (2 ^ 32 - 1) < 2 ^ 32
    omega
  rw [estimateTextTokens, textTokens]
  split
  case isTrue hzero =>
    rw [hzero] at hchars
    change 0 = min text.length (2 ^ 32 - 1) at hchars
    change 0 = _
    omega
  case isFalse =>
    rw [UInt32.toNat_div, toNat_saturatingAdd, hchars]
    change min (min text.length (2 ^ 32 - 1) + 3) (2 ^ 32 - 1) / 4 = _
    omega

theorem toNat_estimateField (value : Json) (field : String) :
    (estimateField value field).toNat = fieldTokens value field := by
  rw [estimateField, fieldTokens]
  cases (value.get field).bind Json.asStr with
  | none => rfl
  | some text => exact toNat_estimateTextTokens text

theorem toNat_estimatePartTokens (part : Json) :
    (estimatePartTokens part).toNat = partTokens part := by
  cases part with
  | string text => exact toNat_estimateTextTokens text
  | object fields => exact toNat_estimateField (.object fields) "text"
  | _ => rfl

theorem map_toNat_estimatePartTokens (parts : List Json) :
    (parts.map estimatePartTokens).map UInt32.toNat = parts.map partTokens := by
  rw [List.map_map]
  exact List.map_congr_left fun part _ => toNat_estimatePartTokens part

theorem noOverflow_iff (body : Json) : NoOverflow body ↔ SmallParts body := by
  refine forall_congr' fun messages => forall_congr' fun _ => forall_congr' fun message =>
    forall_congr' fun _ => ?_
  rw [isSome_checkedSumU32_iff, map_toNat_estimatePartTokens]
  change 0 + _ < 2 ^ 32 ↔ _
  rw [Nat.zero_add]

theorem toNat_estimateMessageContentTokens {message : Json}
    (h : ((partsOf message).map partTokens).sum < 2 ^ 32) :
    (estimateMessageContentTokens (message.get "content")).toNat =
      contentTokens (message.get "content") := by
  rw [partsOf] at h
  match hcontent : message.get "content" with
  | none => rfl
  | some (.string text) => exact toNat_estimateTextTokens text
  | some (.object fields) => exact toNat_estimateField (.object fields) "text"
  | some (.array parts) =>
      rw [hcontent] at h
      have hparts := map_toNat_estimatePartTokens parts
      change (parts.map estimatePartTokens).sum.toNat = _
      rw [toNat_sum_of_lt (hparts ▸ h), hparts]
      rfl
  | some .null => rfl
  | some (.bool _) => rfl
  | some (.number _ _) => rfl

/-- What the estimate adds to its total for a message. -/
def addMessageTokens (total : UInt32) (message : Json) : UInt32 :=
  saturatingAdd (saturatingAdd (saturatingAdd (saturatingAdd total 4)
    (estimateField message "role")) (estimateField message "name"))
    (estimateMessageContentTokens (message.get "content"))

theorem estimatePromptTokensFromMessages_eq (body : Json) :
    estimatePromptTokensFromMessages body =
      (messagesOf body).map (List.foldl addMessageTokens 2) := by
  rw [estimatePromptTokensFromMessages, messagesOf]
  cases body.get "messages" with
  | none => rfl
  | some value => cases value <;> rfl

theorem toNat_addMessageTokens (total : UInt32) {message : Json}
    (h : ((partsOf message).map partTokens).sum < 2 ^ 32) :
    (addMessageTokens total message).toNat =
      min (total.toNat + messageTokens message) (2 ^ 32 - 1) := by
  simp only [addMessageTokens, toNat_saturatingAdd, toNat_estimateField,
    toNat_estimateMessageContentTokens h, messageTokens]
  change min (min (min (min (total.toNat + 4) _ + _) _ + _) _ + _) _ = _
  omega

/-- The sum over the messages saturates once, at its end. -/
theorem toNat_foldl_addMessageTokens {messages : List Json}
    (h : ∀ message ∈ messages, ((partsOf message).map partTokens).sum < 2 ^ 32)
    (total : UInt32) :
    (messages.foldl addMessageTokens total).toNat =
      min (total.toNat + (messages.map messageTokens).sum) (2 ^ 32 - 1) := by
  induction messages generalizing total with
  | nil =>
      have := total.toNat_lt
      change total.toNat = min (total.toNat + 0) (2 ^ 32 - 1)
      omega
  | cons message messages ih =>
      obtain ⟨hmessage, hmessages⟩ := List.forall_mem_cons.mp h
      rw [List.foldl_cons, ih hmessages, toNat_addMessageTokens total hmessage, List.map_cons,
        List.sum_cons]
      omega

theorem toNat_estimatePromptTokens {body : Json} (h : SmallParts body) :
    (estimatePromptTokensFromMessages body).map UInt32.toNat =
      (promptTokens body).map (min · (2 ^ 32 - 1)) := by
  rw [estimatePromptTokensFromMessages_eq, promptTokens]
  cases hmessages : messagesOf body with
  | none => rfl
  | some messages =>
      exact congrArg some (toNat_foldl_addMessageTokens (h messages hmessages) 2)

/-! ### Bodies that grow -/

/-- `value'` is `value` with `new` instead of `old` in a field. -/
structure Replaces (field : String) (old new value value' : Json) : Prop where
  before : value.get field = some old
  after : value'.get field = some new
  others : ∀ other, other ≠ field → value'.get other = value.get other

/-- `value'` is `value` with a longer string in a field. -/
def Lengthens (field : String) (value value' : Json) : Prop :=
  ∃ text text' : String, text.length ≤ text'.length ∧
    Replaces field (.string text) (.string text') value value'

/-- A string that is longer, or an object with a longer `text`. -/
inductive PartGrows : Json → Json → Prop where
  | string {text text' : String} (h : text.length ≤ text'.length) :
      PartGrows (.string text) (.string text')
  | text {part part' : Json} (h : Lengthens "text" part part') : PartGrows part part'

inductive ContentGrows : Json → Json → Prop where
  | single {content content' : Json} (h : PartGrows content content') :
      ContentGrows content content'
  | part (before after : List Json) {part part' : Json} (h : PartGrows part part') :
      ContentGrows (.array (before ++ part :: after)) (.array (before ++ part' :: after))
  | append (parts : List Json) (part : Json) :
      ContentGrows (.array parts) (.array (parts ++ [part]))

inductive MessageGrows (message message' : Json) : Prop where
  | role (h : Lengthens "role" message message')
  | name (h : Lengthens "name" message message')
  | content {content content' : Json} (h : ContentGrows content content')
      (hmessage : Replaces "content" content content' message message')

inductive MessagesGrow : List Json → List Json → Prop where
  | append (messages : List Json) (message : Json) : MessagesGrow messages (messages ++ [message])
  | message (before after : List Json) {message message' : Json}
      (h : MessageGrows message message') :
      MessagesGrow (before ++ message :: after) (before ++ message' :: after)

/-- `body'` is a chat completion that asks for more than `body`: it has one more message, a
message that is longer, or a larger `max_tokens`. -/
inductive Grows (body body' : Json) : Prop where
  | messages {messages messages' : List Json} (h : MessagesGrow messages messages')
      (hbody : Replaces "messages" (.array messages) (.array messages') body body')
  | maxTokens {n n' : UInt64} {value value' : Json} (h : n ≤ n') (hn : value.asU64 = some n)
      (hn' : value'.asU64 = some n') (hbody : Replaces "max_tokens" value value' body body')

theorem textTokens_mono {text text' : String} (h : text.length ≤ text'.length) :
    textTokens text ≤ textTokens text' := by
  rw [textTokens, textTokens]
  omega

namespace Replaces

variable {field : String} {old new value value' : Json}

theorem fieldTokens_of_ne (h : Replaces field old new value value') (other : String)
    (hne : other ≠ field) :
    fieldTokens value' other = fieldTokens value other := by
  rw [fieldTokens, fieldTokens, h.others other hne]

end Replaces

theorem Lengthens.fieldTokens_le {field : String} {value value' : Json}
    (h : Lengthens field value value') : fieldTokens value field ≤ fieldTokens value' field := by
  obtain ⟨text, text', hle, h⟩ := h
  rw [fieldTokens, fieldTokens, h.before, h.after]
  exact textTokens_mono hle

/-- A part with a `text` is an object, which costs what its `text` does. -/
theorem partTokens_of_get {part value : Json} {field : String} (h : part.get field = some value) :
    partTokens part = fieldTokens part "text" := by
  cases part with
  | object fields => rfl
  | _ => cases h

theorem asArray_of_get {part value : Json} {field : String} (h : part.get field = some value) :
    part.asArray = none := by
  cases part with
  | object fields => rfl
  | _ => cases h

/-- A content that is no list of parts costs what it would as a part. -/
theorem contentTokens_of_asArray {content : Json} (h : content.asArray = none) :
    contentTokens (some content) = partTokens content := by
  cases content with
  | array parts => cases h
  | _ => rfl

theorem PartGrows.asArray {part part' : Json} (h : PartGrows part part') :
    part.asArray = none ∧ part'.asArray = none := by
  cases h with
  | string h => exact ⟨rfl, rfl⟩
  | text h =>
      obtain ⟨_, _, _, h⟩ := h
      exact ⟨asArray_of_get h.before, asArray_of_get h.after⟩

theorem PartGrows.partTokens_le {part part' : Json} (h : PartGrows part part') :
    partTokens part ≤ partTokens part' := by
  cases h with
  | string h => exact textTokens_mono h
  | text h =>
      have htext := h.fieldTokens_le
      obtain ⟨_, _, _, hpart⟩ := h
      rw [partTokens_of_get hpart.before, partTokens_of_get hpart.after]
      exact htext

theorem PartGrows.contentTokens_le {part part' : Json} (h : PartGrows part part') :
    contentTokens (some part) ≤ contentTokens (some part') := by
  rw [contentTokens_of_asArray h.asArray.1, contentTokens_of_asArray h.asArray.2]
  exact h.partTokens_le

/-- The parts of a content cost no more than those of one that it grows to. -/
theorem ContentGrows.parts_le {content content' : Json} (h : ContentGrows content content') :
    ((content.asArray.getD []).map partTokens).sum ≤
      ((content'.asArray.getD []).map partTokens).sum := by
  cases h with
  | single h => rw [h.asArray.1, h.asArray.2]
  | part before after h =>
      simp only [Json.asArray, Option.getD_some, List.map_append, List.sum_append, List.map_cons,
        List.sum_cons]
      have := h.partTokens_le
      omega
  | append parts part =>
      simp only [Json.asArray, Option.getD_some, List.map_append, List.sum_append]
      omega

theorem ContentGrows.contentTokens_le {content content' : Json}
    (h : ContentGrows content content') :
    contentTokens (some content) ≤ contentTokens (some content') := by
  cases h with
  | single h => exact h.contentTokens_le
  | part before after h => exact (ContentGrows.part before after h).parts_le
  | append parts part => exact (ContentGrows.append parts part).parts_le

namespace MessageGrows

variable {message message' : Json}

theorem messageTokens_le (h : MessageGrows message message') :
    messageTokens message ≤ messageTokens message' := by
  rw [messageTokens, messageTokens]
  cases h with
  | role h =>
      have hrole := h.fieldTokens_le
      obtain ⟨_, _, _, h⟩ := h
      rw [h.fieldTokens_of_ne "name" (by decide), h.others "content" (by decide)]
      omega
  | name h =>
      have hname := h.fieldTokens_le
      obtain ⟨_, _, _, h⟩ := h
      rw [h.fieldTokens_of_ne "role" (by decide), h.others "content" (by decide)]
      omega
  | content h hmessage =>
      have hcontent := h.contentTokens_le
      rw [hmessage.fieldTokens_of_ne "role" (by decide),
        hmessage.fieldTokens_of_ne "name" (by decide), hmessage.before, hmessage.after]
      omega

theorem parts_le (h : MessageGrows message message') :
    ((partsOf message).map partTokens).sum ≤ ((partsOf message').map partTokens).sum := by
  rw [partsOf, partsOf]
  cases h with
  | role h =>
      obtain ⟨_, _, _, h⟩ := h
      rw [h.others "content" (by decide)]
  | name h =>
      obtain ⟨_, _, _, h⟩ := h
      rw [h.others "content" (by decide)]
  | content h hmessage =>
      rw [hmessage.before, hmessage.after]
      exact h.parts_le

end MessageGrows

namespace MessagesGrow

variable {messages messages' : List Json}

theorem sum_messageTokens_le (h : MessagesGrow messages messages') :
    (messages.map messageTokens).sum ≤ (messages'.map messageTokens).sum := by
  cases h with
  | append messages message =>
      rw [List.map_append, List.sum_append]
      omega
  | message before after h =>
      simp only [List.map_append, List.sum_append, List.map_cons, List.sum_cons]
      have := h.messageTokens_le
      omega

/-- Messages only grow: what bounds the parts of the new ones bounds those of the old. -/
theorem parts_lt {bound : ℕ} (h : MessagesGrow messages messages')
    (hsmall : ∀ message ∈ messages', ((partsOf message).map partTokens).sum < bound) :
    ∀ message ∈ messages, ((partsOf message).map partTokens).sum < bound := by
  cases h with
  | append messages message =>
      exact fun m hm => hsmall m (List.mem_append_left _ hm)
  | message before after h =>
      intro m hm
      rcases List.mem_append.mp hm with hm | hm
      · exact hsmall m (List.mem_append_left _ hm)
      · rcases List.mem_cons.mp hm with rfl | hm
        · exact lt_of_le_of_lt h.parts_le
            (hsmall _ (List.mem_append_right _ List.mem_cons_self))
        · exact hsmall m (List.mem_append_right _ (List.mem_cons_of_mem _ hm))

end MessagesGrow

/-! ### What a body requires -/

/-- The number in a field of a body. -/
def numberOf (body : Json) (field : String) : Option UInt64 :=
  (body.get field).bind Json.asU64

/-- The number in a field, when `u32` holds it. -/
def smallNumber (body : Json) (field : String) : Option ℕ :=
  ((numberOf body field).map UInt64.toNat).filter fun n => n < 2 ^ 32

/-- What is asked for where `max_tokens` does not say it. -/
def completionTokens (body : Json) : ℕ :=
  (smallNumber body "max_completion_tokens").getD 0

def outputTokens (body : Json) : ℕ :=
  (smallNumber body "max_tokens").getD (completionTokens body)

/-- `max_tokens` leaves `u32`, and what the body asks for instead is less, by an amount that the
requirement does not lose to saturation. -/
def Crosses (body body' : Json) : Prop :=
  ∃ n n' : UInt64, numberOf body "max_tokens" = some n ∧ numberOf body' "max_tokens" = some n' ∧
    n.toNat < 2 ^ 32 ∧ 2 ^ 32 ≤ n'.toNat ∧ completionTokens body < n.toNat ∧
      ∃ prompt, promptTokens body = some prompt ∧ prompt + completionTokens body < 2 ^ 32 - 1

/-- What a body requires: no more than `u32::MAX`. -/
def requirement (body : Json) : Option ℕ :=
  (promptTokens body).map fun prompt => min (prompt + outputTokens body) (2 ^ 32 - 1)

/-- There is no requirement, or one that is no larger than the other. -/
def NotLess {α : Type} [LE α] (required required' : Option α) : Prop :=
  ∀ n, required = some n → ∃ n', required' = some n' ∧ n ≤ n'

theorem notLess_map_toNat_iff (required required' : Option UInt32) :
    NotLess (required.map UInt32.toNat) (required'.map UInt32.toNat) ↔
      NotLess required required' := by
  cases required with
  | none => exact iff_of_true (fun _ h => nomatch h) (fun _ h => nomatch h)
  | some n => cases required' <;> simp [NotLess, UInt32.le_iff_toNat_le]

theorem map_toNat_numericBodyFieldU32 (body : Json) (field : String) :
    (numericBodyFieldU32 body field).map UInt32.toNat = smallNumber body field := by
  rw [smallNumber, numberOf, numericBodyFieldU32]
  cases body.get field with
  | none => rfl
  | some value =>
      change Option.map UInt32.toNat (value.asU64.bind _) = Option.filter _ (value.asU64.map _)
      cases value.asU64 with
      | none => rfl
      | some n =>
          rw [Option.bind_some, Option.map_some, Option.filter_some]
          by_cases h : n.toNat < 2 ^ 32
          · rw [if_pos h, if_pos (decide_eq_true h), Option.map_some, UInt64.toNat_toUInt32,
              Nat.mod_eq_of_lt h]
          · rw [if_neg h, if_neg (by simpa using h)]
            rfl

theorem outputTokens_of_maxTokens {body : Json} {n : UInt64}
    (h : numberOf body "max_tokens" = some n) :
    outputTokens body = if n.toNat < 2 ^ 32 then n.toNat else completionTokens body := by
  rw [outputTokens, smallNumber, h, Option.map_some, Option.filter_some]
  by_cases hn : n.toNat < 2 ^ 32
  · rw [if_pos hn, if_pos (decide_eq_true hn), Option.getD_some]
  · rw [if_neg hn, if_neg (by simpa using hn), Option.getD_none]

namespace Replaces

variable {field : String} {old new value value' : Json}

theorem messagesOf_of_ne (h : Replaces field old new value value') (hne : "messages" ≠ field) :
    messagesOf value' = messagesOf value := by
  rw [messagesOf, messagesOf, h.others "messages" hne]

theorem smallNumber_of_ne (h : Replaces field old new value value') (other : String)
    (hne : other ≠ field) : smallNumber value' other = smallNumber value other := by
  rw [smallNumber, smallNumber, numberOf, numberOf, h.others other hne]

theorem completionTokens_of_ne (h : Replaces field old new value value')
    (hne : "max_completion_tokens" ≠ field) : completionTokens value' = completionTokens value := by
  rw [completionTokens, completionTokens, h.smallNumber_of_ne _ hne]

end Replaces

section Required

variable (codec : Codec)

/-- The `anemoi` object of a body is accepted, and no token field is set in it. -/
def TokenFree (body : Json) : Prop :=
  ∃ metadata, gatewaySelectionMetadata codec body = .ok metadata ∧
    metadata.promptTokensEstimate = none ∧ metadata.maxOutputTokens = none

/-- The requirement of the request that the gateway decides for a body. -/
def gatewayRequiredTokens (id : RequestId) (domain : String) (body : Json) : Option UInt32 :=
  (gatewayInferenceRequest codec id domain body).toOption.bind requestRequiredTokens

variable {codec}

theorem TokenFree.of_get_eq {body body' : Json} (h : TokenFree codec body)
    (hget : body'.get "anemoi" = body.get "anemoi") : TokenFree codec body' := by
  rw [TokenFree, gatewaySelectionMetadata, hget]
  exact h

theorem gatewayRequiredTokens_eq {body : Json} (hfree : TokenFree codec body) (id : RequestId)
    (domain : String) :
    gatewayRequiredTokens codec id domain body =
      (estimatePromptTokensFromMessages body).map fun prompt =>
        saturatingAdd prompt (((numericBodyFieldU32 body "max_tokens").or
          (numericBodyFieldU32 body "max_completion_tokens")).getD 0) := by
  obtain ⟨metadata, hmetadata, hprompt, houtput⟩ := hfree
  rw [gatewayRequiredTokens, gatewayInferenceRequest, hmetadata]
  change requestRequiredTokens _ = _
  rw [requestRequiredTokens]
  dsimp only
  rw [hprompt, houtput, Option.none_or, Option.none_or]

theorem toNat_maxOutputTokens (body : Json) :
    (((numericBodyFieldU32 body "max_tokens").or
      (numericBodyFieldU32 body "max_completion_tokens")).getD 0).toNat = outputTokens body := by
  rw [outputTokens, completionTokens, ← map_toNat_numericBodyFieldU32,
    ← map_toNat_numericBodyFieldU32]
  cases numericBodyFieldU32 body "max_tokens" with
  | some n => rfl
  | none => cases numericBodyFieldU32 body "max_completion_tokens" <;> rfl

theorem toNat_gatewayRequiredTokens {body : Json} (hfree : TokenFree codec body)
    (hsmall : SmallParts body) (id : RequestId) (domain : String) :
    (gatewayRequiredTokens codec id domain body).map UInt32.toNat = requirement body := by
  have hestimate := toNat_estimatePromptTokens hsmall
  rw [gatewayRequiredTokens_eq hfree, requirement]
  cases hp : estimatePromptTokensFromMessages body with
  | none =>
      rw [hp, Option.map_none] at hestimate
      rw [Option.map_eq_none_iff.mp hestimate.symm]
      rfl
  | some prompt =>
      rw [hp, Option.map_some] at hestimate
      obtain ⟨exact, hexact, hmin⟩ := Option.map_eq_some_iff.mp hestimate.symm
      rw [hexact, Option.map_some, Option.map_some, Option.map_some, toNat_saturatingAdd,
        toNat_maxOutputTokens, ← hmin]
      congr 1
      omega

end Required

section Growth

variable {body body' : Json}

/-- A body whose messages grow asks for the same output and for no smaller prompt. -/
theorem requirement_notLess_of_messagesGrow {messages messages' : List Json}
    (h : MessagesGrow messages messages')
    (hbody : Replaces "messages" (.array messages) (.array messages') body body') :
    NotLess (requirement body) (requirement body') := by
  have hmessages : messagesOf body = some messages := by
    rw [messagesOf, hbody.before]
    rfl
  have hmessages' : messagesOf body' = some messages' := by
    rw [messagesOf, hbody.after]
    rfl
  have houtput : outputTokens body' = outputTokens body := by
    rw [outputTokens, outputTokens, hbody.smallNumber_of_ne "max_tokens" (by decide),
      hbody.completionTokens_of_ne (by decide)]
  have hsum := h.sum_messageTokens_le
  rw [requirement, requirement, promptTokens, promptTokens, hmessages, hmessages', houtput]
  rintro n ⟨⟩
  refine ⟨_, rfl, ?_⟩
  dsimp only
  omega

/-- A larger `max_tokens` lowers the requirement exactly when it crosses the bound of `u32`. -/
theorem requirement_notLess_of_maxTokens_iff {n n' : UInt64} {value value' : Json} (h : n ≤ n')
    (hn : value.asU64 = some n) (hn' : value'.asU64 = some n')
    (hbody : Replaces "max_tokens" value value' body body') :
    NotLess (requirement body) (requirement body') ↔ ¬Crosses body body' := by
  have hnumber : numberOf body "max_tokens" = some n := by
    rw [numberOf, hbody.before, Option.bind_some, hn]
  have hnumber' : numberOf body' "max_tokens" = some n' := by
    rw [numberOf, hbody.after, Option.bind_some, hn']
  have hprompt : promptTokens body' = promptTokens body := by
    rw [promptTokens, promptTokens, hbody.messagesOf_of_ne (by decide)]
  have hle : n.toNat ≤ n'.toNat := UInt64.le_iff_toNat_le.mp h
  rw [requirement, requirement, outputTokens_of_maxTokens hnumber,
    outputTokens_of_maxTokens hnumber', hprompt, hbody.completionTokens_of_ne (by decide)]
  constructor
  · rintro hall ⟨m, m', hm, hm', hlt, hge, hless, p, hp, hroom⟩
    obtain rfl := Option.some.inj (hnumber.symm.trans hm)
    obtain rfl := Option.some.inj (hnumber'.symm.trans hm')
    rw [hp, if_pos hlt, if_neg (Nat.not_lt.mpr hge)] at hall
    obtain ⟨_, ⟨⟩, hmin⟩ := hall _ rfl
    dsimp only at hmin
    omega
  · intro hcrosses m hm
    obtain ⟨p, hp, rfl⟩ := Option.map_eq_some_iff.mp hm
    refine ⟨_, congrArg (Option.map _) hp, ?_⟩
    by_contra hmin
    dsimp only at hmin
    -- the requirement drops only where the old number is read and the new one is not
    have hlt : n.toNat < 2 ^ 32 := by
      by_contra hge
      rw [if_neg hge, if_neg (by omega)] at hmin
      exact hmin le_rfl
    have hge : 2 ^ 32 ≤ n'.toNat := by
      by_contra hlt'
      rw [if_pos hlt, if_pos (by omega)] at hmin
      omega
    rw [if_pos hlt, if_neg (Nat.not_lt.mpr hge)] at hmin
    exact hcrosses ⟨n, n', hnumber, hnumber', hlt, hge, by omega, p, hp, by omega⟩

namespace Grows

theorem get_anemoi (h : Grows body body') : body'.get "anemoi" = body.get "anemoi" := by
  cases h with
  | messages h hbody => exact hbody.others "anemoi" (by decide)
  | maxTokens h hn hn' hbody => exact hbody.others "anemoi" (by decide)

theorem smallParts (h : Grows body body') (hsmall : SmallParts body') : SmallParts body := by
  cases h with
  | @messages old new h hbody =>
      have hnew : messagesOf body' = some new := by
        rw [messagesOf, hbody.after]
        rfl
      intro messages hmessages
      rw [messagesOf, hbody.before] at hmessages
      obtain rfl := Option.some.inj hmessages
      exact h.parts_lt (hsmall new hnew)
  | maxTokens h hn hn' hbody =>
      rw [SmallParts, hbody.messagesOf_of_ne (by decide)] at hsmall
      exact hsmall

/-- Which of the bodies that grow ask for no less. -/
theorem requirement_notLess_iff (h : Grows body body') :
    NotLess (requirement body) (requirement body') ↔ ¬Crosses body body' := by
  cases h with
  | messages h hbody =>
      refine iff_of_true (requirement_notLess_of_messagesGrow h hbody) ?_
      rintro ⟨n, n', hn, hn', hlt, hge, -⟩
      rw [numberOf, hbody.others "max_tokens" (by decide)] at hn'
      obtain rfl := Option.some.inj (hn.symm.trans hn')
      omega
  | maxTokens h hn hn' hbody =>
      exact requirement_notLess_of_maxTokens_iff h hn hn' hbody

end Grows

/-- A body that grows requires no less than before, and no addition overflows, exactly when the
parts of each of its messages fit in `u32` and its `max_tokens` does not leave it. -/
theorem requiredTokens_monotone_iff {codec : Codec} (hfree : TokenFree codec body)
    (hgrows : Grows body body') (id id' : RequestId) (domain : String) :
    (NotLess (gatewayRequiredTokens codec id domain body)
        (gatewayRequiredTokens codec id' domain body') ∧ NoOverflow body ∧ NoOverflow body') ↔
      SmallParts body' ∧ ¬Crosses body body' := by
  have hfree' := hfree.of_get_eq hgrows.get_anemoi
  rw [noOverflow_iff, noOverflow_iff, ← notLess_map_toNat_iff]
  constructor
  · rintro ⟨hless, hsmall, hsmall'⟩
    rw [toNat_gatewayRequiredTokens hfree hsmall,
      toNat_gatewayRequiredTokens hfree' hsmall'] at hless
    exact ⟨hsmall', hgrows.requirement_notLess_iff.mp hless⟩
  · rintro ⟨hsmall', hcrosses⟩
    have hsmall := hgrows.smallParts hsmall'
    refine ⟨?_, hsmall, hsmall'⟩
    rw [toNat_gatewayRequiredTokens hfree hsmall, toNat_gatewayRequiredTokens hfree' hsmall']
    exact hgrows.requirement_notLess_iff.mpr hcrosses

end Growth

/-! ### A limit out of range -/

/-- A chat completion with one message, whose content is a list of parts. -/
def askingFor (maxTokens : UInt64) (parts : List Json) : Json :=
  .object
    [("messages", .array [.object [("role", .string "user"), ("content", .array parts)]]),
     ("max_tokens", .ofU64 maxTokens)]

theorem tokenFree_askingFor (maxTokens : UInt64) (parts : List Json) :
    TokenFree default (askingFor maxTokens parts) :=
  ⟨{}, rfl, rfl, rfl⟩

/-- One field of an object is replaced where it stands. -/
theorem replaces_object (before : List (String × Json)) (field : String)
    (h : before.lookup field = none) (old new : Json) (after : List (String × Json)) :
    Replaces field old new (.object (before ++ (field, old) :: after))
      (.object (before ++ (field, new) :: after)) where
  before := by
    rw [Json.get, List.lookup_append, h, Option.none_or, List.lookup_cons_self]
  after := by
    rw [Json.get, List.lookup_append, h, Option.none_or, List.lookup_cons_self]
  others other hne := by
    have hbeq : (other == field) = false := beq_eq_false_iff_ne.mpr hne
    rw [Json.get, Json.get, List.lookup_append, List.lookup_append, List.lookup_cons, hbeq,
      List.lookup_cons, hbeq]

theorem grows_askingFor_part (maxTokens : UInt64) (parts : List Json) (part : Json) :
    Grows (askingFor maxTokens parts) (askingFor maxTokens (parts ++ [part])) := by
  have hmessage := replaces_object [("role", .string "user")] "content" rfl
    (.array parts) (.array (parts ++ [part])) []
  exact .messages (.message [] [] (.content (.append parts part) hmessage))
    (replaces_object [] "messages" rfl _ _ _)

theorem grows_askingFor_maxTokens {n n' : UInt64} (h : n ≤ n') (parts : List Json) :
    Grows (askingFor n parts) (askingFor n' parts) :=
  .maxTokens h rfl rfl (replaces_object [_] "max_tokens" rfl (.ofU64 n) (.ofU64 n') [])

theorem requiredTokens_monotone_part :
    TokenFree default (askingFor 16 [.string "hi"]) ∧
      Grows (askingFor 16 [.string "hi"]) (askingFor 16 [.string "hi", .string "there"]) ∧
      NotLess (gatewayRequiredTokens default ⟨"request"⟩ "coding" (askingFor 16 [.string "hi"]))
        (gatewayRequiredTokens default ⟨"request"⟩ "coding"
          (askingFor 16 [.string "hi", .string "there"])) := by
  have hgrows := grows_askingFor_part 16 [.string "hi"] (.string "there")
  refine ⟨tokenFree_askingFor 16 _, hgrows, ?_⟩
  refine ((requiredTokens_monotone_iff (tokenFree_askingFor 16 _) hgrows ⟨"request"⟩
    ⟨"request"⟩ "coding").mpr ⟨?_, ?_⟩).1
  · intro messages hmessages
    obtain rfl := Option.some.inj hmessages
    decide
  · rintro ⟨n, n', hn, hn', hlt, hge, -⟩
    obtain rfl := Option.some.inj hn
    obtain rfl := Option.some.inj hn'
    omega

/-- A `max_tokens` of 2 ^ 32 is read as not given, and requires less than one of 1. -/
theorem requiredTokens_decreases :
    TokenFree default (askingFor 1 []) ∧ Grows (askingFor 1 []) (askingFor 4294967296 []) ∧
      ¬NotLess (gatewayRequiredTokens default ⟨"request"⟩ "coding" (askingFor 1 []))
        (gatewayRequiredTokens default ⟨"request"⟩ "coding" (askingFor 4294967296 [])) := by
  refine ⟨tokenFree_askingFor 1 [], grows_askingFor_maxTokens (by decide) [], ?_⟩
  have hbefore :
      gatewayRequiredTokens default ⟨"request"⟩ "coding" (askingFor 1 []) = some 8 := by
    decide
  have hafter :
      gatewayRequiredTokens default ⟨"request"⟩ "coding" (askingFor 4294967296 []) = some 7 := by
    decide
  intro hless
  obtain ⟨n, hn, hle⟩ := hless 8 hbefore
  obtain rfl := Option.some.inj (hafter.symm.trans hn)
  exact absurd hle (by decide)

end Anemoi
