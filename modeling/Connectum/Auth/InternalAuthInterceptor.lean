import Connectum.Auth.AuthInterceptor

/-! The interceptor for service-to-service calls. -/
namespace Connectum.Auth
open Async

namespace InternalAuth
variable {Session : Type}

/-- What follows the trust source, which may have changed the headers. -/
def trusted : Headers × Except Failure (Option AuthContext) →
    AuthProgram Session (Except Failure Forwarded)
  | (header, .ok (some context)) => .done (.ok ⟨header, some context⟩)
  | (_, .ok none) | (_, .error _) =>
    .done (.error (.connectError .unauthenticated "Untrusted internal request"))

end InternalAuth

def createInternalAuthInterceptor {Session : Type} (internalMethods : List JsString)
    (req : Request) : AuthProgram Session (Except Failure Forwarded) :=
  if matchesMethodPattern req.typeName req.methodName internalMethods then
    .await (.trustSource req.header) InternalAuth.trusted
  else .done (.ok ⟨req.header, none⟩)

section
variable {Session : Type} {internalMethods : List JsString} {req : Request} {s t : AuthState}
  {fwd : Forwarded} {trace : List (Answered (AuthCall Session) AuthCall.Answer AuthState)}

/-- The trust source has returned the context. -/
def Trusted (context : AuthContext)
    (trace : List (Answered (AuthCall Session) AuthCall.Answer AuthState)) : Prop :=
  ∃ header header' u, ⟨.trustSource header, (header', Except.ok (some context)), u⟩ ∈ trace

theorem Trusted.mono {context : AuthContext} (h : Trusted context trace)
    (before after : List (Answered (AuthCall Session) AuthCall.Answer AuthState)) :
    Trusted context (before ++ (trace ++ after)) := by
  obtain ⟨header, header', u, hmem⟩ := h
  exact ⟨header, header', u, List.mem_append_right _ (List.mem_append_left _ hmem)⟩

theorem exec_createInternalAuthInterceptor
    (h : Exec (createInternalAuthInterceptor internalMethods req : AuthProgram Session _) s trace t
      (.ok fwd)) :
    (matchesMethodPattern req.typeName req.methodName internalMethods = false ∧
        fwd = ⟨req.header, none⟩) ∨
      matchesMethodPattern req.typeName req.methodName internalMethods = true ∧
        ∃ context, Trusted context trace ∧ fwd.stored = some context := by
  unfold createInternalAuthInterceptor at h
  split at h
  next hinternal =>
    right
    refine ⟨hinternal, ?_⟩
    obtain ⟨answer, u, rest, rfl, htrusted⟩ := exec_await_iff.mp h
    unfold InternalAuth.trusted at htrusted
    split at htrusted
    next header context =>
      refine ⟨context, ⟨req.header, header, u, List.mem_cons_self⟩, ?_⟩
      rw [Except.ok.inj (exec_done_iff.mp htrusted).1]
    next => exact nomatch (exec_done_iff.mp htrusted).1
    next => exact nomatch (exec_done_iff.mp htrusted).1
  next hinternal =>
    exact .inl ⟨eq_false_of_ne_true hinternal, Except.ok.inj (exec_done_iff.mp h).1⟩

end

end Connectum.Auth
