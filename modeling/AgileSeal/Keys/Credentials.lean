set_option autoImplicit false

/-! # Credentials

What a caller proves its right to a text with: a passphrase or the path of a key file. A
passphrase is never shown.
-/

namespace AgileSeal

/-- The credentials of a caller. -/
inductive Credentials
  | passphrase (text : String)
  | keyFile (path : String)

/-- Credentials as diagnostics show them. -/
def Credentials.inspect : Credentials → String
  | .passphrase _ => "Credentials::Passphrase(<redacted>)"
  | .keyFile path => "Credentials::KeyFile(" ++ path ++ ")"

end AgileSeal
