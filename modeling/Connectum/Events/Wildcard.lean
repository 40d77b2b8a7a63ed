import Mathlib.Data.List.Basic
import Mathlib.Tactic.Common

/-! Wildcard matching of event topics: `*` stands for one dot-separated segment and a
trailing `>` for one or more. -/
namespace Connectum.Events

/-- The loop over `patternParts`, which consumes both part lists in step. -/
def matchParts : List (List Char) → List (List Char) → Bool
  | [], topicParts => topicParts.isEmpty
  | p :: patternParts, topicParts =>
    if p = ['>'] then patternParts.isEmpty && !topicParts.isEmpty
    else match topicParts with
      | [] => false
      | t :: topicParts =>
        if p = ['*'] then matchParts patternParts topicParts
        else if p ≠ t then false
        else matchParts patternParts topicParts

def matchPattern (pattern topic : String) : Bool :=
  if '*' ∉ pattern.toList ∧ '>' ∉ pattern.toList then decide (pattern = topic)
  else matchParts (pattern.toList.splitOn '.') (topic.toList.splitOn '.')

variable {Handler : Type*}

/-- The handler lookup of the delivery callback: an exact topic first, then the first
wildcard pattern in registration order. -/
def lookupHandler (topicHandlerMap : List (String × Handler)) (eventType : String) :
    Option Handler :=
  match topicHandlerMap.lookup eventType with
  | some handler => some handler
  | none =>
    (topicHandlerMap.find? fun entry =>
      decide (entry.1 ≠ eventType) && matchPattern entry.1 eventType).map Prod.snd

example : matchPattern "user.>" "user.created.v2" = true := by decide

end Connectum.Events
