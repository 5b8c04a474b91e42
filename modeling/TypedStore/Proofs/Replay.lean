/-
  TypedStore/Proofs/Replay.lean
  =============================
  **Replaying a journal.**

  Some events of level info tell of a change: a value has been stored under a key, a key has been
  removed or reset, all keys have been reset. Replayed on a map they make these changes to it. What is
  under a key after that has been stored by the last event that touches the key
  (`exists_stored_of_get?_replay`).
-/
import Mathlib.Data.List.Induction
import TypedStore.Journal
import TypedStore.Proofs.SortedMap

namespace TypedStore.Event

/-- What an event makes of a map from keys to texts. -/
def apply (m : SortedMap String String) : Event → SortedMap String String
  | .stored key text => m.insert key text
  | .removed key | .resetKey key _ => m.erase key
  | .resetAll _ => .empty
  | _ => m

/-- The event may change what is under a key. -/
def Touches (key : String) : Event → Prop
  | .stored other _ | .removed other | .resetKey other _ => other = key
  | .resetAll _ => True
  | _ => False

/-- Replay the events of level info, beginning with a map. -/
def replayOn (m : SortedMap String String) (events : List Event) : SortedMap String String :=
  (events.filter (·.level = .info)).foldl apply m

def replay (events : List Event) : SortedMap String String := replayOn .empty events

variable {m : SortedMap String String} {events before after : List Event} {key text : String}

theorem replayOn_append (m : SortedMap String String) (before after : List Event) :
    replayOn m (before ++ after) = replayOn (replayOn m before) after := by
  rw [replayOn, List.filter_append, List.foldl_append]
  rfl

theorem replayOn_singleton (m : SortedMap String String) (event : Event) :
    replayOn m [event] = event.apply m := by
  cases event <;> rfl

theorem get?_apply_of_not_touches {event : Event} (h : ¬ event.Touches key) :
    (event.apply m).get? key = m.get? key := by
  cases event with
  | stored other text => exact (SortedMap.get?_insert _ _ _ _).trans (if_neg (Ne.symm h))
  | removed other => exact (SortedMap.get?_erase _ _ _).trans (if_neg (Ne.symm h))
  | resetKey other present => exact (SortedMap.get?_erase _ _ _).trans (if_neg (Ne.symm h))
  | resetAll count => exact absurd trivial h
  | _ => rfl

/-- An event after which there is a text under a key has stored it, or leaves what was under the key. -/
theorem eq_stored_of_get?_apply {event : Event} (h : (event.apply m).get? key = some text) :
    event = .stored key text ∨ ¬ event.Touches key := by
  by_cases htouches : event.Touches key
  · left
    cases event with
    | stored other text' =>
      obtain rfl : other = key := htouches
      rw [apply, SortedMap.get?_insert, if_pos rfl] at h
      rw [Option.some.inj h]
    | removed other =>
      obtain rfl : other = key := htouches
      rw [apply, SortedMap.get?_erase, if_pos rfl] at h
      cases h
    | resetKey other present =>
      obtain rfl : other = key := htouches
      rw [apply, SortedMap.get?_erase, if_pos rfl] at h
      cases h
    | resetAll count => cases h
    | _ => exact htouches.elim
  · exact .inr htouches

/-- What the replay has under a key has been stored there, and nothing has touched the key since. -/
theorem exists_stored_of_get?_replay (h : (replay events).get? key = some text) :
    ∃ before after, events = before ++ .stored key text :: after ∧
      ∀ event ∈ after, ¬ event.Touches key := by
  induction events using List.reverseRecOn with
  | nil => cases h
  | append_singleton events event ih =>
    rw [replay, replayOn_append, replayOn_singleton] at h
    rcases eq_stored_of_get?_apply h with rfl | htouches
    · exact ⟨events, [], rfl, List.forall_mem_nil _⟩
    · rw [get?_apply_of_not_touches htouches] at h
      obtain ⟨before, after, rfl, hafter⟩ := ih h
      refine ⟨before, after ++ [event], by simp, ?_⟩
      exact List.forall_mem_append.2 ⟨hafter, List.forall_mem_singleton.2 htouches⟩

/-! ### Where retrieved texts come from -/

/-- Whatever is reported as retrieved was there at that time, where `m` was there at first. -/
def Sourced (m : SortedMap String String) (events : List Event) : Prop :=
  ∀ before key text after, events = before ++ .retrieved key text :: after →
    (replayOn m before).get? key = some text

theorem sourced_nil (m : SortedMap String String) : Sourced m [] := by
  intro before key text after heq
  exact absurd heq (by simp)

theorem sourced_singleton {event : Event}
    (h : ∀ key text, event = .retrieved key text → m.get? key = some text) : Sourced m [event] := by
  intro before key text after heq
  rcases List.append_eq_singleton_iff.1 heq.symm with ⟨rfl, hevent⟩ | ⟨rfl, hnil⟩
  · obtain ⟨rfl, -⟩ := List.cons.inj hevent
    exact h key text rfl
  · cases hnil

theorem Sourced.append (hbefore : Sourced m before) (hafter : Sourced (replayOn m before) after) :
    Sourced m (before ++ after) := by
  intro first key text last heq
  rcases List.append_eq_append_iff.1 heq with ⟨rest, rfl, hrest⟩ | ⟨rest, rfl, hrest⟩
  · rw [replayOn_append]
    exact hafter rest key text last hrest
  · cases rest with
    | nil =>
      rw [List.append_nil] at hafter
      exact hafter [] key text last hrest.symm
    | cons event rest =>
      obtain ⟨rfl, rfl⟩ := List.cons.inj hrest
      exact hbefore first key text rest rfl

end TypedStore.Event
