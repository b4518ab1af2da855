import Mathlib.Data.List.DropRight
import NostdbServer.Daemon.Initialize

/-!
# Who a credential makes of a client

`Credentials::load` reads the two credential files, which nobody else may read,
and refuses two equal tokens. Of the file system only what the two reads see is
modelled. The HTTP adapter compares its key with a copy of the comparison.
-/

namespace NostdbServer

open Effects

/-- What the file system shows of the credential files: the permission bits and
the text. -/
structure CredentialFiles where
  mode : Path → Except IoError Nat
  readToString : Path → Except IoError String

/-- `char::is_whitespace` -/
def isWhitespace (c : Char) : Bool :=
  let n := c.toNat
  (9 ≤ n && n ≤ 13) || n = 0x20 || n = 0x85 || n = 0xa0 || n = 0x1680 ||
    (0x2000 ≤ n && n ≤ 0x200a) || n = 0x2028 || n = 0x2029 || n = 0x202f || n = 0x205f || n = 0x3000

/-- `{:03o}` of a number below `0o1000` -/
def octal3 (n : Nat) : String :=
  String.ofList [Nat.digitChar (n / 64 % 8), Nat.digitChar (n / 8 % 8), Nat.digitChar (n % 8)]

/-- `trim_end_matches(['\r', '\n'])` -/
def trimLineEnd (s : String) : String :=
  String.ofList (s.toList.rdropWhile fun c => c = '\r' || c = '\n')

section
variable (files : CredentialFiles)

def validateCredentialPermissions (path : Path) : Except ServerError Unit :=
  let shown := Path.display path
  match files.mode path with
  | .error error => .error ⟨s!"cannot inspect credential file {shown}: {error}"⟩
  | .ok bits =>
    let mode := bits &&& 0o777
    if mode &&& 0o077 ≠ 0 then
      let octal := octal3 mode
      .error ⟨s!"credential file {shown} has mode {octal}; remove all group and other permissions (0600 or stricter is required)"⟩
    else .ok ()

def readCredential (path : Path) : Except ServerError String := do
  let shown := Path.display path
  validateCredentialPermissions files path
  match files.readToString path with
  | .error error => .error ⟨s!"cannot read credential file {shown}: {error}"⟩
  | .ok text =>
    let credential := trimLineEnd text
    if credential.utf8ByteSize < 32 || credential.toList.any isWhitespace then
      .error ⟨s!"credential file {shown} must contain one non-whitespace token of at least 32 characters"⟩
    else .ok credential

def Credentials.load (config : DaemonConfig) : Except ServerError Credentials := do
  let query ← readCredential files config.queryCredentialFile
  let admin ← readCredential files config.adminCredentialFile
  if query = admin then .error ⟨"query and admin credentials must not have the same value"⟩
  else .ok ⟨query, admin⟩

end

/-- The comparison of the HTTP adapter, on the bytes of two texts. -/
def Http.constantTimeEqual (left right : String) : Bool :=
  NostdbServer.constantTimeEqual (utf8 left) (utf8 right)

theorem Credentials.load_distinct {files : CredentialFiles} {config : DaemonConfig}
    {credentials : Credentials} (h : Credentials.load files config = .ok credentials) :
    credentials.query ≠ credentials.admin := by
  unfold Credentials.load at h
  cases hquery : readCredential files config.queryCredentialFile with
  | error e =>
    rw [hquery] at h
    cases h
  | ok query =>
    cases hadmin : readCredential files config.adminCredentialFile with
    | error e =>
      rw [hquery, hadmin] at h
      cases h
    | ok admin =>
      rw [hquery, hadmin] at h
      change (if query = admin then _ else _) = _ at h
      split at h
      · cases h
      · cases h
        assumption

/-- Both comparisons decide equality, and with the credentials of a daemon each
role is given for one text and no other. -/
theorem credential_comparison_exact :
    (∀ left right : List UInt8, constantTimeEqual left right = true ↔ left = right) ∧
      (∀ left right : String, Http.constantTimeEqual left right = true ↔ left = right) ∧
      ∀ (files : CredentialFiles) (config : DaemonConfig) (credentials : Credentials),
        Credentials.load files config = .ok credentials → ∀ supplied : String,
          (credentials.authenticate supplied = some .admin ↔ supplied = credentials.admin) ∧
          (credentials.authenticate supplied = some .query ↔ supplied = credentials.query) ∧
          (credentials.authenticate supplied = none ↔
            supplied ≠ credentials.admin ∧ supplied ≠ credentials.query) := by
  refine ⟨constantTimeEqual_iff, fun left right => ?_, fun files config credentials h supplied => ?_⟩
  · rw [Http.constantTimeEqual, constantTimeEqual_iff, utf8_inj]
  · refine ⟨Credentials.authenticate_admin,
      Credentials.authenticate_query (Credentials.load_distinct h), ?_⟩
    rw [← Option.not_isSome_iff_eq_none, Credentials.authenticate_isSome, not_or]

/-- Credential files whose tokens differ in the last character. -/
def similarTokens : CredentialFiles where
  mode _ := .ok 0o600
  readToString path := .ok ("0123456789abcdef0123456789abcde" ++
    (if path = ["srv", "credentials", "admin.token"] then "a" else "q") ++ "\n")

theorem credential_comparison_exact_similar :
    Credentials.authenticate
      ⟨"0123456789abcdef0123456789abcdeq", "0123456789abcdef0123456789abcdea"⟩
      "0123456789abcdef0123456789abcdeq" = some .query := by
  have hload : Credentials.load similarTokens (.new ["srv"] "127.0.0.1:7000") =
      .ok ⟨"0123456789abcdef0123456789abcdeq", "0123456789abcdef0123456789abcdea"⟩ := by
    decide +kernel
  exact (credential_comparison_exact.2.2 _ _ _ hload _).2.1.mpr rfl

end NostdbServer
