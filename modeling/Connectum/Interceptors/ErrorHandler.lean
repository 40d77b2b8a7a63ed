import Connectum.Interceptors.Value

/-! The error handler: what it makes of the values that are thrown downstream. -/
namespace Connectum.Interceptors
open JsString

/-- What the type guard narrows its argument to. -/
structure SanitizableError where
  clientMessage : JsString
  serverDetails : Value
  code : JsNumber

def isSanitizableError (err : Value) : Option SanitizableError :=
  if err.instanceOf .error then
    match err.property "clientMessage", err.property "serverDetails", err.property "code" with
    | .string clientMessage, .object false classes properties, .number code =>
      some ⟨clientMessage, .object false classes properties, code⟩
    | _, _, _ => none
  else none

/-- The argument of `onError`. -/
structure ErrorInfo where
  error : Value
  code : JsNumber
  serverDetails : Option Value
  stack : Option Value

/-- `onError` gives the value that the callback throws, if it does. -/
structure ErrorHandlerOptions where
  logErrors : Option Bool := none
  includeStackTrace : Option Bool := none
  onError : Option (ErrorInfo → Option Value) := none

/-- A call of `console.error`. -/
structure ConsoleError where
  label : String
  value : Value

/-- What is reported of the error, and the value that is thrown in its place. -/
structure Handled where
  info : Option ErrorInfo
  console : List ConsoleError
  thrown : Value

variable (connect : ConnectErrors) (nodeEnv : Option String) (options : ErrorHandlerOptions)

/-- `NODE_ENV` decides where the option is not given. -/
def resolved (option : Option Bool) : Bool := option.getD (decide (nodeEnv ≠ some "production"))

/-- The stack, where the options ask for it and there is one. -/
def reportedStack (stack : Value) : Option Value :=
  if resolved nodeEnv options.includeStackTrace && stack.truthy then some stack else none

/-- The callback replaces the console, and what it throws replaces the error. -/
def report (err : Value) (info : ErrorInfo) (transformed error : Value) : Handled :=
  match options.onError with
  | some onError => ⟨some info, [], (onError info).getD error⟩
  | none =>
    if resolved nodeEnv options.logErrors then
      ⟨none, [⟨"Interceptor caught error:", err⟩, ⟨"Transformed ConnectError:", transformed⟩] ++
        info.stack.toList.map fun stack => ⟨"Stack trace:", stack⟩, error⟩
    else ⟨none, [], error⟩

/-- The code of an error that is not sanitizable. -/
def errorCode (err : Value) : JsNumber :=
  match err.property "code" with
  | .number code => code
  | _ => codeValue .internal

def errorInfo (err : Value) : ErrorInfo :=
  match isSanitizableError err with
  | some s => ⟨err, s.code, some s.serverDetails,
      reportedStack nodeEnv options (err.property "stack")⟩
  | none =>
    let error := connect.from err (errorCode err)
    ⟨error, errorCode err, none, reportedStack nodeEnv options (error.property "stack")⟩

/-- The `catch` block. -/
def handleError (err : Value) : Handled :=
  let info := errorInfo connect nodeEnv options err
  match isSanitizableError err with
  | some s =>
    report nodeEnv options err info (.string s.clientMessage) (connect.new s.clientMessage s.code)
  | none => report nodeEnv options err info info.error info.error

/-- The interceptor on the outcome of `next(req)`. -/
def createErrorHandlerInterceptor {R : Type} : Except Value R → Except Value R
  | .ok res => .ok res
  | .error err => .error (handleError connect nodeEnv options err).thrown

/-- A `ConnectError` with a Connect code, the original one if there was one, and of a sanitizable
error nothing but its client message. -/
structure Normalised (err thrown : Value) : Prop where
  connectError : thrown.instanceOf .connectError = true
  code : ∃ code, thrown.property "code" = .number (codeValue code)
  kept : ∀ code, err.property "code" = .number (codeValue code) →
    thrown.property "code" = .number (codeValue code)
  sanitized : ∀ s, isSanitizableError err = some s →
    ∃ code, thrown = connect.new s.clientMessage code

/-- What `onError` throws instead of returning. -/
def interruption (err : Value) : Option Value :=
  options.onError.bind fun onError => onError (errorInfo connect nodeEnv options err)

/-- A number for a code is a Connect code, and a `ConnectError` has one. -/
def ProperCode (err : Value) : Prop :=
  match err.property "code" with
  | .number code => IsCode code
  | _ => err.instanceOf .connectError = false

/-- The callback lets the error through and the code is a proper one, or what the callback throws
meets the requirements itself. -/
def Normalisable (err : Value) : Prop :=
  match interruption connect nodeEnv options err with
  | some thrown => Normalised connect err thrown
  | none => ProperCode err

variable {connect nodeEnv options} {err thrown : Value} {s : SanitizableError} {code : JsNumber}

theorem code_of_isSanitizableError (h : isSanitizableError err = some s) :
    err.property "code" = .number s.code := by
  unfold isSanitizableError at h
  split at h
  next =>
    split at h
    next hcode =>
      obtain rfl := Option.some.inj h
      exact hcode
    next => cases h
  next => cases h

/-- Where the callback does not throw, the transformed error is thrown. -/
theorem thrown_report {info : ErrorInfo} {transformed error : Value} :
    (report nodeEnv options err info transformed error).thrown =
      (options.onError.bind fun onError => onError info).getD error := by
  unfold report
  split
  next honError => rw [honError, Option.bind_some]
  next honError =>
    rw [honError]
    split <;> rfl

/-- The error that is thrown where no callback interferes. -/
def transformed (connect : ConnectErrors) (err : Value) : Value :=
  match isSanitizableError err with
  | some s => connect.new s.clientMessage s.code
  | none => connect.from err (errorCode err)

theorem thrown_handleError :
    (handleError connect nodeEnv options err).thrown =
      (interruption connect nodeEnv options err).getD (transformed connect err) := by
  unfold handleError transformed
  cases hs : isSanitizableError err with
  | some s => exact thrown_report
  | none =>
    have hinfo : (errorInfo connect nodeEnv options err).error =
        connect.from err (errorCode err) := by
      unfold errorInfo
      rw [hs]
    dsimp only
    rw [thrown_report, hinfo]
    rfl

theorem instanceOf_transformed (hconnect : connect.Documented) :
    (transformed connect err).instanceOf .connectError = true := by
  unfold transformed
  split
  next => exact hconnect.new_instance _ _
  next => exact hconnect.from_instance _ _

/-- A number for a code is the code of what is thrown. -/
theorem code_transformed (hconnect : connect.Documented) (h : err.property "code" = .number code) :
    (transformed connect err).property "code" = .number code := by
  unfold transformed
  split
  next s hs =>
    obtain rfl := Value.number.inj ((code_of_isSanitizableError hs).symm.trans h)
    exact hconnect.new_code _ _
  next =>
    cases hclass : err.instanceOf .connectError with
    | true => rw [hconnect.from_connectError _ _ hclass, h]
    | false => rw [hconnect.from_code _ _ hclass, errorCode, h]

theorem code_transformed_of_not_number (hconnect : connect.Documented)
    (h : ∀ code, err.property "code" ≠ .number code) :
    (transformed connect err).property "code" =
      if err.instanceOf .connectError = true then err.property "code"
      else .number (codeValue .internal) := by
  have hnone : isSanitizableError err = none := by
    cases hs : isSanitizableError err with
    | none => rfl
    | some s => exact absurd (code_of_isSanitizableError hs) (h s.code)
  have hcode : errorCode err = codeValue .internal := by
    unfold errorCode
    split
    next code hnumber => exact absurd hnumber (h code)
    next => rfl
  unfold transformed
  rw [hnone]
  dsimp only
  split
  next hclass => rw [hconnect.from_connectError _ _ hclass]
  next hclass => rw [hconnect.from_code _ _ (eq_false_of_ne_true hclass), hcode]

theorem properCode_iff (hconnect : connect.Documented) :
    ProperCode err ↔
      ∃ code, (transformed connect err).property "code" = .number (codeValue code) := by
  unfold ProperCode
  split
  next x hx =>
    rw [code_transformed hconnect hx]
    constructor
    · rintro ⟨code, rfl⟩
      exact ⟨code, rfl⟩
    · rintro ⟨code, h⟩
      exact ⟨code, Value.number.inj h⟩
  next hnumber =>
    rw [code_transformed_of_not_number hconnect hnumber]
    constructor
    · intro hclass
      rw [if_neg (by rw [hclass]; exact Bool.false_ne_true)]
      exact ⟨.internal, rfl⟩
    · rintro ⟨code, hcode⟩
      by_contra hclass
      rw [if_pos (eq_true_of_ne_false hclass)] at hcode
      exact hnumber _ hcode

theorem normalised_transformed_iff (hconnect : connect.Documented) :
    Normalised connect err (transformed connect err) ↔ ProperCode err := by
  rw [properCode_iff hconnect]
  constructor
  · exact fun h => h.code
  · intro hcode
    refine ⟨instanceOf_transformed hconnect, hcode, fun _ h => code_transformed hconnect h, ?_⟩
    intro s hs
    exact ⟨s.code, by rw [transformed, hs]⟩

/-- The interceptor throws a normalised error exactly if it can: the numbers that others use for
codes are not mapped. -/
theorem rethrows_normalised_iff {R : Type} (hconnect : connect.Documented)
    (nodeEnv : Option String) (options : ErrorHandlerOptions) (err : Value) :
    (∃ thrown, createErrorHandlerInterceptor connect nodeEnv options (.error err) =
        (.error thrown : Except Value R) ∧ Normalised connect err thrown) ↔
      Normalisable connect nodeEnv options err := by
  have hthrown : (∃ thrown, createErrorHandlerInterceptor connect nodeEnv options (.error err) =
      (.error thrown : Except Value R) ∧ Normalised connect err thrown) ↔
      Normalised connect err (handleError connect nodeEnv options err).thrown := by
    simp [createErrorHandlerInterceptor]
  rw [hthrown, thrown_handleError, Normalisable]
  cases interruption connect nodeEnv options err with
  | some thrown => exact Iff.rfl
  | none => exact normalised_transformed_iff hconnect

/-- An object that is an `Error`, with its message and a code. The message of a `ConnectError`
itself has a prefix. -/
def errorObject (isConnectError : Bool) (message : JsString) (code : Value) : Value :=
  .object false (fun c => decide (c = .error) || (isConnectError && decide (c = .connectError)))
    fun key =>
      if key = if isConnectError then "rawMessage" else "message" then .string message
      else if key = "code" then code else .undefined

/-- The class as far as the code and the message of an `Error` show it. -/
def plainConnect : ConnectErrors where
  new message code := errorObject true message (.number code)
  «from» value code :=
    if value.instanceOf .connectError = true then value
    else
      match value.property "message" with
      | .string message => errorObject true message (.number code)
      | _ => errorObject true [] (.number code)

theorem documented_plainConnect : plainConnect.Documented where
  new_instance _ _ := rfl
  new_code _ _ := rfl
  from_connectError _ _ h := if_pos h
  from_instance value code := by
    unfold plainConnect
    dsimp only
    split
    next h => exact h
    next => split <;> rfl
  from_code value code h := by
    unfold plainConnect
    dsimp only
    rw [h, if_neg Bool.false_ne_true]
    split <;> rfl

theorem rethrows_normalised_iff_plain :
    ∃ thrown, createErrorHandlerInterceptor plainConnect none {}
        (.error (errorObject false (js "not there") (.number (codeValue .notFound)))) =
        (.error thrown : Except Value Unit) ∧
      Normalised plainConnect (errorObject false (js "not there") (.number (codeValue .notFound)))
        thrown :=
  (rethrows_normalised_iff documented_plainConnect none {} _).mpr (isCode_codeValue .notFound)

/-- The code of a database driver is passed on. -/
theorem foreign_code_rethrown :
    ¬ ∀ (connect : ConnectErrors) (nodeEnv : Option String) (options : ErrorHandlerOptions)
      (err : Value), connect.Documented →
      ∃ thrown, createErrorHandlerInterceptor connect nodeEnv options (.error err) =
        (.error thrown : Except Value Unit) ∧ Normalised connect err thrown := by
  intro h
  obtain ⟨thrown, hthrown, hnormalised⟩ := h plainConnect none {}
    (errorObject false (js "E11000 duplicate key error") (.number (.finite 11000)))
    documented_plainConnect
  obtain rfl := Except.error.inj hthrown
  obtain ⟨code, hcode⟩ := hnormalised.code
  have hforeign : IsCode (.finite 11000) := ⟨code, Value.number.inj hcode⟩
  obtain ⟨n, -, hupper, hn⟩ := isCode_iff.mp hforeign
  have hn : ((11000 : ℕ) : ℚ) = n := by exact_mod_cast JsNumber.finite.inj hn
  have hn := Nat.cast_injective hn
  omega

end Connectum.Interceptors
