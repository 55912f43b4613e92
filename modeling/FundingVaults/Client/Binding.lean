import FundingVaults.Verifier.Accounts

/-!
# Policies in the client

Transcription of what `readBoundPolicy` of the local client makes of the bytes of the policy account,
which it reads at fixed offsets.
-/

namespace FundingVaults.Client

open LaunchV7 Verifier

/-- The policy that a session is bound to. -/
structure Binding where
  identityHex : String
  specHashHex : String
  policy : String
  creator : String
  mint : String
  founder : String
  treasury : String
  oracle : String

/-- The keys of a binding, with their places in the account. -/
def Binding.actors (binding : Binding) : List (String × String × ℕ) :=
  [("creator", binding.creator, 8), ("mint", binding.mint, 40), ("founder", binding.founder, 72),
    ("treasury", binding.treasury, 104), ("oracle", binding.oracle, 832)]

/-- A withdrawal role at its place. -/
def roleAt (policy : Bytes) (offset : ℕ) : Verifier.Role where
  current := base58Encode (slice policy offset 32)
  epoch := Format.Q.unpack (slice policy (offset + 32) 8)
  sequence := Format.Q.unpack (slice policy (offset + 40) 8)
  pending := Format.Q.unpack (slice policy (offset + 48) 8)

/-- The roles of the bound policy. -/
def readBoundPolicy (chain : Chain) (binding : Binding) (policy : Bytes) :
    Except String (List Verifier.Role) := do
  require (policy.length = 1065) "ACCOUNT_BYTES"
  require (slice policy 0 8 = (chain.sha256 (ascii "account:LaunchPolicyV7")).bytes.take 8)
    "POLICY_DISCRIMINATOR"
  require (hexEncode (slice policy 168 32) = binding.identityHex ∧
    hexEncode (slice policy 200 32) = binding.specHashHex ∧
    shown (chain.findProgramAddress [ascii "launch-v7-policy", slice policy 168 32] ID).1 =
      binding.policy) "POLICY_BINDING"
  forM binding.actors fun (name, key, offset) ↦
    require (base58Encode (slice policy offset 32) = key) ("ACTOR_BINDING_" ++ name)
  pure ([945, 1001].map (roleAt policy))

end FundingVaults.Client
