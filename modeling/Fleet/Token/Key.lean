import Fleet.Json.Reader

/-!
Public keys that a header may carry. A key has members that every key may have, and those of one of
four families; it is checked for its form only.
-/

namespace Fleet.Token

open Json (Form Reader Document ReadError)

/-- Algorithms that sign, by name. -/
def signatureNames : List String :=
  ["HS256", "HS384", "HS512", "ES256", "ES384", "RS256", "RS384", "RS512", "PS256", "PS384",
    "PS512", "EdDSA"]

namespace Key

def known (names : List String) : Reader Unit := .choice (names.map (·, ()))

/-- What any key may say about itself. -/
def commonForm : Form Unit :=
  (fun _ _ _ _ _ _ _ _ => ()) <$> .optional "use" .text <*> .optional "key_ops" (.list .text)
    <*> .optional "alg" (known (signatureNames ++ ["RSA1_5", "RSA-OAEP", "RSA-OAEP-256"]))
    <*> .optional "kid" .text <*> .optional "x5u" .text <*> .optional "x5c" (.list .text)
    <*> .optional "x5t" .text <*> .optional "x5t#S256" .text

def curve : Form Unit := .required "crv" (known ["P-256", "P-384", "P-521", "Ed25519"])

/-- The families of keys, by their members. -/
def families : List (Form Unit) :=
  [(fun _ _ _ _ => ()) <$> .required "kty" (known ["EC"]) <*> curve <*> .required "x" .text
      <*> .required "y" .text,
    (fun _ _ _ => ()) <$> .required "kty" (known ["RSA"]) <*> .required "n" .text
      <*> .required "e" .text,
    (fun _ _ => ()) <$> .required "kty" (known ["oct"]) <*> .required "k" .text,
    (fun _ _ _ => ()) <$> .required "kty" (known ["OKP"]) <*> curve <*> .required "x" .text]

def isOfFamily (ctx : Json.Context) (members : List (Option String × Document)) : Bool :=
  families.any fun f => ((f.reader "" ctx (.record members)).toOption).isSome

/-- All members are read before any of them is looked at. -/
def reader : Reader Unit
  | ctx, .record members => do
    let inner ← ctx.enter
    for (k, d) in members do
      if k.isNone then throw .malformed
      let _ ← d.whole inner
    let ours (m : Option String × Document) : Bool :=
      commonForm.slots.any fun s => some s.name == m.1
    let aside : Json.Context := ⟨.aside, inner.room⟩
    commonForm.reader "" aside (.record (members.filter ours))
    if isOfFamily aside (members.filter fun m => !ours m) then return ()
    else throw (.custom "data did not match any variant of untagged enum AlgorithmParameters")
  | _, d => .error (Json.mismatch d "struct Jwk")

end Key

end Fleet.Token
