import BehaviorTree.Proofs.Blackboard.Bindings

/-!
# Fields that are reached in parts

A path leads to the same field whether it is followed at once or in two parts. What stands at the
end of the first part is turned into a value of its own kind before the second part is followed, but
a scalar has no parts before that either. So a path may be read up to some field, the field put into
a variable and the rest of the path read from there: the result is the same, and so is an error but
for the variable that it names.
-/

namespace BehaviorTree

theorem mapError_zero_add {α : Type} (found : Except Nat α) : found.mapError (0 + ·) = found := by
  cases found <;> simp [Except.mapError]

namespace Json

theorem follow_append (content : Json) (front back : List String) :
    content.follow (front ++ back) =
      (content.follow front).bind fun part => (part.follow back).mapError (front.length + ·) := by
  induction front generalizing content with
  | nil => exact (mapError_zero_add (content.follow back)).symm
  | cons segment front ih =>
    simp only [List.cons_append, follow]
    cases content.step? segment with
    | none => rfl
    | some part =>
      dsimp only
      rw [ih]
      cases part.follow front with
      | error position => rfl
      | ok inner =>
        simp only [Except.bind, Except.mapError, List.length_cons]
        cases inner.follow back with
        | error position => simp only [Nat.add_right_comm]
        | ok found => rfl

/-- The position in an error is that of a segment of the path. -/
theorem lt_length_of_follow {content : Json} {path : List String} {position : Nat}
    (lost : content.follow path = .error position) : position < path.length := by
  induction path generalizing content position with
  | nil => cases lost
  | cons segment path ih =>
    rw [follow] at lost
    split at lost
    · rename_i part _
      cases further : part.follow path with
      | error inner =>
        rw [further] at lost
        cases lost
        exact Nat.succ_lt_succ (ih further)
      | ok found =>
        rw [further] at lost
        cases lost
    · cases lost
      exact Nat.succ_pos _

end Json

namespace Value

theorem field_message (content : Json) {path : List String} (some : path ≠ []) :
    (message content).field path = (content.follow path).map ofJson := by
  cases path with
  | nil => exact absurd rfl some
  | cons segment path => rfl

/-- A part of a message has the same fields when it has become a value. -/
theorem field_ofJson (content : Json) {path : List String} (some : path ≠ []) :
    (ofJson content).field path = (content.follow path).map ofJson := by
  cases path with
  | nil => exact absurd rfl some
  | cons segment path =>
    cases content with
    | integer number =>
      rw [ofJson]
      split <;> rfl
    | null => rfl
    | bool value => rfl
    | real number => rfl
    | string text => rfl
    | array items => rfl
    | object members => rfl

theorem lt_length_of_field {value : Value} {path : List String} {position : Nat}
    (lost : value.field path = .error position) : position < path.length := by
  cases path with
  | nil => cases lost
  | cons segment path =>
    cases value with
    | message content =>
      rw [field_message content (List.cons_ne_nil _ _)] at lost
      cases followed : content.follow (segment :: path) with
      | error inner =>
        rw [followed] at lost
        cases lost
        exact Json.lt_length_of_follow followed
      | ok part =>
        rw [followed] at lost
        cases lost
    | bool | int | float | string =>
      cases lost
      exact Nat.succ_pos _

theorem field_append (value : Value) (front back : List String) :
    value.field (front ++ back) =
      (value.field front).bind fun part => (part.field back).mapError (front.length + ·) := by
  cases front with
  | nil => exact (mapError_zero_add (value.field back)).symm
  | cons segment front =>
    cases value with
    | message content =>
      rw [List.cons_append, field_message content (List.cons_ne_nil _ _),
        field_message content (List.cons_ne_nil _ _), ← List.cons_append, Json.follow_append]
      cases content.follow (segment :: front) with
      | error position => rfl
      | ok part =>
        simp only [Except.bind, Except.map]
        cases back with
        | nil => rfl
        | cons next back =>
          rw [field_ofJson part (List.cons_ne_nil _ _)]
          cases part.follow (next :: back) <;> rfl
    | bool | int | float | string => rfl

end Value

/-- The error as it is about a variable of another name. -/
def BlackboardError.about (name : String) : BlackboardError → BlackboardError
  | .invalidPath _ segment => .invalidPath name segment
  | error => error

/-- The first part and the other parts of a text, with one more character in front. -/
def cutAt (separator character : Char) (parts : List Char × List String) :
    List Char × List String :=
  if character = separator then ([], String.ofList parts.1 :: parts.2)
  else (character :: parts.1, parts.2)

/-- Parts that stand behind a text stay behind its own parts. -/
theorem foldr_cutAt (separator : Char) (text : List Char) (behind : List String) :
    text.foldr (cutAt separator) ([], behind) =
      ((text.foldr (cutAt separator) ([], [])).1,
        (text.foldr (cutAt separator) ([], [])).2 ++ behind) := by
  induction text with
  | nil => rfl
  | cons character rest ih =>
    rw [List.foldr_cons, List.foldr_cons, ih]
    unfold cutAt
    split <;> rfl

/-- A text that is put together around a separator has the parts of both texts. -/
theorem splitAt_append (separator : Char) (front back : String) :
    splitAt separator (front ++ String.singleton separator ++ back) =
      splitAt separator front ++ splitAt separator back := by
  have split : ∀ text : String, splitAt separator text =
      String.ofList (text.toList.foldr (cutAt separator) ([], [])).1 ::
        (text.toList.foldr (cutAt separator) ([], [])).2 := fun _ => rfl
  have separates : ∀ parts,
      cutAt separator separator parts = ([], String.ofList parts.1 :: parts.2) :=
    fun _ => if_pos rfl
  simp only [split, String.toList_append, String.toList_singleton, List.foldr_append,
    List.foldr_cons, List.foldr_nil, separates]
  rw [foldr_cutAt]
  rfl

namespace Blackboard

variable {blackboard after : Blackboard} {id scope : ScopeId} {entry held : Entry}
  {front name path : String}

theorem splitPath_append (front back : String) :
    splitPath (front ++ "." ++ back) =
      ((splitPath front).1, (splitPath front).2 ++ splitAt '.' back) := by
  have parts : splitAt '.' (front ++ "." ++ back) = splitAt '.' front ++ splitAt '.' back :=
    splitAt_append '.' front back
  unfold splitPath
  rw [parts]
  rfl

theorem splitPath_name (plain : '.' ∉ name.toList) (back : String) :
    splitPath (name ++ "." ++ back) = (name, splitAt '.' back) := by
  rw [splitPath_append, splitPath_of_not_mem plain]
  rfl

theorem followPath_append (name other : String) (front back : List String)
    (stored : followPath name front entry = .ok held.value) :
    followPath name (front ++ back) entry =
      (followPath other back held).mapError (.about name) := by
  unfold followPath at stored ⊢
  rw [Value.field_append]
  cases led : entry.value.field front with
  | error position =>
    rw [led] at stored
    cases stored
  | ok part =>
    rw [led] at stored
    cases stored
    simp only [Except.bind]
    cases held.value.field back with
    | error position =>
      simp [Except.mapError, BlackboardError.about, List.getElem?_append_right]
    | ok value => rfl

theorem followPath_append_error (name : String) (front back : List String)
    {error : BlackboardError} (lost : followPath name front entry = .error error) :
    followPath name (front ++ back) entry = .error error := by
  unfold followPath at lost ⊢
  rw [Value.field_append]
  cases led : entry.value.field front with
  | error position =>
    rw [led] at lost
    cases lost
    simp [Except.bind, Except.mapError,
      List.getElem?_append_left (Value.lt_length_of_field led)]
  | ok part =>
    rw [led] at lost
    cases lost

/-- Either a variable is too old for its reader, whatever path is read, or the path decides. -/
theorem resolve_cases (entry : Entry) (name : String) (freshness : Freshness) (now : Duration) :
    (∀ path, (splitPath path).1 = name → entry.resolve path freshness now =
      (followPath name (splitPath path).2 entry).map .value) ∨
    ∃ refusal, (∀ value, refusal ≠ .ok (.value value)) ∧
      ∀ path, (splitPath path).1 = name → entry.resolve path freshness now = refusal := by
  rcases freshness with ⟨policy, _ | maxAge⟩
  · left
    rintro path rfl
    rfl
  · by_cases old : maxAge < now.since entry.writtenAt
    · cases policy with
      | readAnyway =>
        left
        rintro path rfl
        simp [Entry.resolve]
      | blockUntilFresh =>
        right
        refine ⟨.ok .blocked, nofun, ?_⟩
        rintro path rfl
        simp [Entry.resolve, old]
      | failIfStale =>
        right
        refine ⟨.error (.staleValue name (now.since entry.writtenAt) maxAge), nofun, ?_⟩
        rintro path rfl
        simp [Entry.resolve, old]
    · left
      rintro path rfl
      simp [Entry.resolve, old]

/-- A variable is defined in a scope, or its nearest definition is changed. -/
def Stores (before : Blackboard) (scope : ScopeId) (name : String) (entry : Entry)
    (after : Blackboard) : Prop :=
  before.define scope name entry = .ok after ∨ before.write scope name entry = .ok after

theorem Stores.entry_eq (stores : blackboard.Stores scope name entry after) :
    after.entry scope name = .ok entry :=
  stores.elim entry_define entry_write

theorem resolveValue_append (read : blackboard.resolveValue id front = .ok held.value)
    (plain : '.' ∉ name.toList) (stored : after.entry scope name = .ok held) (back : String) :
    blackboard.resolveValue id (front ++ "." ++ back) =
      (after.resolveValue scope (name ++ "." ++ back)).mapError (.about (splitPath front).1) := by
  rw [resolveValue_eq] at read
  rw [resolveValue_eq, resolveValue_eq, splitPath_append, splitPath_name plain, stored]
  cases found : blackboard.entry id (splitPath front).1 with
  | error error =>
    rw [found] at read
    cases read
  | ok entry =>
    rw [found] at read
    exact followPath_append _ name _ _ read

theorem resolveValue_append_error {error : BlackboardError}
    (lost : blackboard.resolveValue id front = .error error) (back : String) :
    blackboard.resolveValue id (front ++ "." ++ back) = .error error := by
  rw [resolveValue_eq] at lost ⊢
  rw [splitPath_append]
  cases found : blackboard.entry id (splitPath front).1 with
  | error cause =>
    rw [found] at lost
    exact lost
  | ok entry =>
    rw [found] at lost
    exact followPath_append_error _ _ _ lost

theorem resolve_append {freshness : Freshness} {now : Duration}
    (read : blackboard.resolve id front freshness now = .ok (.value held.value))
    (plain : '.' ∉ name.toList) (stored : after.entry scope name = .ok held)
    (justNow : held.writtenAt = now) (back : String) :
    blackboard.resolve id (front ++ "." ++ back) freshness now =
      (after.resolve scope (name ++ "." ++ back) freshness now).mapError
        (.about (splitPath front).1) := by
  subst justNow
  rw [resolve_eq] at read
  rw [resolve_eq, resolve_eq, splitPath_append, splitPath_name plain, stored]
  cases found : blackboard.entry id (splitPath front).1 with
  | error error =>
    rw [found] at read
    cases read
  | ok entry =>
    rw [found] at read
    simp only [Except.bind] at read ⊢
    rw [resolve_just_written, splitPath_name plain]
    rcases resolve_cases entry (splitPath front).1 freshness held.writtenAt with
      follows | ⟨refusal, unread, refused⟩
    · rw [follows front rfl] at read
      rw [follows _ (by rw [splitPath_append]), splitPath_append]
      cases led : followPath (splitPath front).1 (splitPath front).2 entry with
      | error error =>
        rw [led] at read
        cases read
      | ok part =>
        rw [led] at read
        cases read
        rw [followPath_append _ name _ _ led]
        cases followPath name (splitAt '.' back) held <;> rfl
    · rw [refused front rfl] at read
      exact absurd read (unread _)

theorem resolve_append_unread {freshness : Freshness} {now : Duration}
    (unread : ∀ value, blackboard.resolve id front freshness now ≠ .ok (.value value))
    (back : String) :
    blackboard.resolve id (front ++ "." ++ back) freshness now =
      blackboard.resolve id front freshness now := by
  rw [resolve_eq] at unread
  rw [resolve_eq, resolve_eq, splitPath_append]
  cases found : blackboard.entry id (splitPath front).1 with
  | error error => rfl
  | ok entry =>
    rw [found] at unread
    simp only [Except.bind] at unread ⊢
    rcases resolve_cases entry (splitPath front).1 freshness now with
      follows | ⟨refusal, -, refused⟩
    · rw [follows front rfl] at unread ⊢
      rw [follows _ (by rw [splitPath_append]), splitPath_append]
      cases led : followPath (splitPath front).1 (splitPath front).2 entry with
      | error error => rw [followPath_append_error _ _ _ led]
      | ok part =>
        rw [led] at unread
        exact absurd rfl (unread part)
    · rw [refused front rfl, refused _ (by rw [splitPath_append])]

/-- The field at the end of two paths, one behind the other, is the one that the second path leads
to from the field at the end of the first. So a path of a variable gives what its rest gives for a
variable into which the value of its front is put, and what its front gives if that is no value. -/
theorem paths_compose :
    (∀ (value : Value) (front back : List String), value.field (front ++ back) =
      match value.field front with
      | .ok part => (part.field back).mapError (front.length + ·)
      | .error position => .error position) ∧
    ∀ (blackboard : Blackboard) (id : ScopeId) (front back : String),
      (∀ freshness now,
        match blackboard.resolve id front freshness now with
        | .ok (.value part) => ∀ scope name writer after, '.' ∉ name.toList →
            blackboard.Stores scope name ⟨part, now, writer⟩ after →
            blackboard.resolve id (front ++ "." ++ back) freshness now =
              (after.resolve scope (name ++ "." ++ back) freshness now).mapError
                (.about (splitPath front).1)
        | unread => blackboard.resolve id (front ++ "." ++ back) freshness now = unread) ∧
      match blackboard.resolveValue id front with
      | .ok part => ∀ scope name now writer after, '.' ∉ name.toList →
          blackboard.Stores scope name ⟨part, now, writer⟩ after →
          blackboard.resolveValue id (front ++ "." ++ back) =
            (after.resolveValue scope (name ++ "." ++ back)).mapError (.about (splitPath front).1)
      | .error error => blackboard.resolveValue id (front ++ "." ++ back) = .error error := by
  refine ⟨fun value front back => ?_, fun blackboard id front back => ⟨fun freshness now => ?_, ?_⟩⟩
  · rw [Value.field_append]
    cases value.field front <;> rfl
  · split
    · rename_i part read
      intro scope name writer after plain stores
      exact resolve_append read plain stores.entry_eq rfl back
    · rename_i unread
      exact resolve_append_unread unread back
  · split
    · rename_i part read
      intro scope name now writer after plain stores
      exact resolveValue_append read plain stores.entry_eq back
    · rename_i error lost
      exact resolveValue_append_error lost back

/-- The state of a robot, with the charge of its battery. -/
def chargedBattery : Json := .object [("charge", .integer ⟨87, by decide⟩)]

def charged : Blackboard :=
  (empty.define .root "state"
    ⟨.message (.object [("battery", chargedBattery)]), .zero, none⟩).toOption.getD default

/-- The battery of the robot has a variable of its own. -/
def withBattery : Blackboard :=
  (charged.define .root "battery" ⟨.message chargedBattery, .zero, none⟩).toOption.getD default

theorem battery_is_read_alike :
    charged.resolve .root "state.battery" .any .zero = .ok (.value (.message chargedBattery)) ∧
      charged.Stores .root "battery" ⟨.message chargedBattery, .zero, none⟩ withBattery ∧
      ∀ back, charged.resolve .root ("state.battery" ++ "." ++ back) .any .zero =
        (withBattery.resolve .root ("battery" ++ "." ++ back) .any .zero).mapError
          (.about "state") := by
  have read : charged.resolve .root "state.battery" .any .zero =
      .ok (.value (.message chargedBattery)) := by rfl
  have stores : charged.Stores .root "battery" ⟨.message chargedBattery, .zero, none⟩ withBattery :=
    Or.inl (by rfl)
  refine ⟨read, stores, fun back => ?_⟩
  have composed := (paths_compose.2 charged .root "state.battery" back).1 .any .zero
  rw [read] at composed
  exact composed .root "battery" none withBattery (by decide) stores

end Blackboard

end BehaviorTree
