import Fleet.Error
import Fleet.Token.Base64Url
import Fleet.Token.Key
import Fleet.Token.Registered
import Fleet.Token.Sha256
import Fleet.Text.Utf8

/-!
Signed tokens that a machine shows when it dials in. A token is a header, claims and a signature,
with points between. It counts until a minute after its expiry.
-/

namespace Fleet.Token

open Json (Form Reader)

structure Claims where
  userId : String
  orgId : String
  issuedAt : Nat
  expires : Nat
  deriving DecidableEq, Repr, Inhabited

namespace Claims

def toJson (c : Claims) : Json :=
  Json.object [("userId", .str c.userId), ("orgId", .str c.orgId), ("iat", .nat c.issuedAt),
    ("exp", .nat c.expires)]

/-- Whose token it is, and for how many seconds it is good. -/
def summary (c : Claims) : Json :=
  Json.object [("userId", .str c.userId), ("orgId", .str c.orgId),
    ("lifetime", .nat (c.expires - c.issuedAt))]

def form : Form Claims :=
  Claims.mk <$> .required "userId" .text <*> .required "orgId" .text <*> .required "iat" .nat64
    <*> .required "exp" .nat64

def reader : Reader Claims := form.reader "struct VmClaims"

end Claims

inductive Failure where
  | invalidToken
  | invalidAlgorithm
  | invalidSignature
  | expired
  | invalidAudience
  | badBase64
  | badJson (cause : Json.ReadError)
  deriving DecidableEq, Repr

def Failure.message : Failure → String
  | .invalidToken => "InvalidToken"
  | .invalidAlgorithm => "InvalidAlgorithm"
  | .invalidSignature => "InvalidSignature"
  | .expired => "ExpiredSignature"
  | .invalidAudience => "InvalidAudience"
  | .badBase64 => "Base64 error"
  | .badJson e => s!"JSON error: {e.message}"

/-- Seconds for which an expired token still counts. -/
def leeway : Nat := 60

/-- What signs tokens: a secret, and how long they last. -/
structure Signer where
  secret : String
  ttlSecs : Nat
  deriving DecidableEq, Repr

namespace Signer

/-- The secret where none is set. -/
def developmentSecret : String := "semibot-development-secret"

def ofSettings (secret : Option String) (ttlSecs : Nat) : Signer :=
  ⟨secret.getD developmentSecret, ttlSecs⟩

/-- How a signer shows itself, without its secret. -/
def shown (s : Signer) : String :=
  String.ofList ("VmTokenSigner ".toList ++ '{' :: s!" ttl_secs: {s.ttlSecs}, .. ".toList ++ ['}'])

def signature (s : Signer) (message : List Char) : List Char :=
  toBase64 (hmac (Text.encode s.secret) (Text.encode (String.ofList message)))

def part (v : Json) : List Char := toBase64 (Text.encode (Json.print v))

/-- A token for a user, issued at a time in seconds. -/
def issue (s : Signer) (userId orgId : String) (now : Nat) : String :=
  let claims : Claims := ⟨userId, orgId, now, (now + s.ttlSecs) % bitBound 64⟩
  let header := Json.object [("typ", .str "JWT"), ("alg", .str "HS256")]
  let message := part header ++ '.' :: part claims.toJson
  String.ofList (message ++ '.' :: s.signature message)

end Signer

inductive Algorithm where
  | hs256
  | other
  deriving DecidableEq, Repr

def algorithms : List (String × Algorithm) :=
  signatureNames.map fun name => (name, if name = "HS256" then .hs256 else .other)

/-- The header counts only by its algorithm. -/
def headerForm : Form Algorithm :=
  (fun _ alg _ _ _ _ _ _ _ _ => alg) <$> .optional "typ" .text
    <*> .required "alg" (.choice algorithms) <*> .optional "cty" .text <*> .optional "jku" .text
    <*> .optional "jwk" Key.reader <*> .optional "kid" .text <*> .optional "x5u" .text
    <*> .optional "x5c" (.list .text) <*> .optional "x5t" .text
    <*> .optional "x5t#S256" .text

/-- The last point splits a text in two. -/
def splitLast (cs : List Char) : Option (List Char × List Char) :=
  let back := cs.reverse
  match back.dropWhile (· ≠ '.') with
  | [] => none
  | _ :: front => some (front.reverse, (back.takeWhile (· ≠ '.')).reverse)

def decodePart (cs : List Char) : Except Failure (List UInt8) :=
  match ofBase64? cs with
  | some bytes => .ok bytes
  | none => .error .badBase64

/-- The claims of a token that this signer signed and that still counts at a time in seconds. -/
def Signer.check (s : Signer) (now : Nat) (token : String) : Except Failure Claims := do
  let some (message, signature) := splitLast token.toList | throw .invalidToken
  let some (header, payload) := splitLast message | throw .invalidToken
  let header ← decodePart header
  let alg ← ((headerForm.reader "struct Header").ofBytes header).mapError .badJson
  if alg ≠ .hs256 then throw .invalidAlgorithm
  if signature ≠ s.signature message then throw .invalidSignature
  let payload ← decodePart payload
  let claims ← (Claims.reader.ofBytes payload).mapError .badJson
  let audience ← (Registered.audience (Text.characters payload)).mapError .badJson
  if claims.expires < now - leeway then throw .expired
  if audience then throw .invalidAudience
  return claims

def Signer.verify (s : Signer) (now : Nat) (token : String) : Except Error Claims :=
  (s.check now token).mapError fun e => .auth s!"Invalid VM token: {e.message}"

end Fleet.Token
