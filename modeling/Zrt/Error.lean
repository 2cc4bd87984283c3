/-! The engine's error type. -/
namespace Zrt

/-- `Error`: an ORT error code, or a negative code for errors of the crate itself. -/
structure Error where
  code : Int
  message : String
  deriving DecidableEq

/-- `Error::local`. -/
def Error.local (message : String) : Error := ⟨-1, message⟩

/-- `OrtErrorCode::from_c_int`, by name. -/
def ortErrorCode : Int → Option String
  | 0 => some "Ok"
  | 1 => some "Fail"
  | 2 => some "InvalidArgument"
  | 3 => some "NoSuchFile"
  | 4 => some "NoModel"
  | 5 => some "EngineError"
  | 6 => some "RuntimeException"
  | 7 => some "InvalidProtobuf"
  | 8 => some "ModelLoaded"
  | 9 => some "NotImplemented"
  | 10 => some "InvalidGraph"
  | 11 => some "EpFail"
  | 12 => some "ModelLoadCanceled"
  | 13 => some "ModelRequiresCompilation"
  | 14 => some "NotFound"
  | _ => none

/-- `Display` of an error. -/
def Error.display (e : Error) : String :=
  match ortErrorCode e.code with
  | some name => "zrt error [" ++ name ++ " (" ++ toString e.code ++ ")]: " ++ e.message
  | none => "zrt error [" ++ toString e.code ++ "]: " ++ e.message

/-- `CString::new`, with its error mapped to a message. -/
def cstring (s message : String) : Except Error String :=
  if s.toList.contains '\x00' then .error (.local message) else .ok s

theorem cstring_ok (s message : String) :
    (∃ c, cstring s message = .ok c) ↔ '\x00' ∉ s.toList := by
  by_cases h : '\x00' ∈ s.toList <;> simp [cstring, h]

variable {ε α β : Type} {x : Except ε α}

theorem bind_eq_ok {f : α → Except ε β} {b : β} (h : x.bind f = .ok b) :
    ∃ a, x = .ok a ∧ f a = .ok b := by
  cases x with
  | error e => cases h
  | ok a => exact ⟨a, rfl, h⟩

theorem map_eq_ok {f : α → β} {b : β} (h : x.map f = .ok b) : ∃ a, x = .ok a ∧ f a = b := by
  cases x with
  | error e => cases h
  | ok a => exact ⟨a, rfl, Except.ok.inj h⟩

end Zrt
