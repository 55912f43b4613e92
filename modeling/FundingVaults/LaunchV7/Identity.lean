import FundingVaults.LaunchV7.State
import FundingVaults.Lib.Codec

/-!
# Policy identity

The Borsh bytes of a configuration and the identity that commits a policy to them, from the end
of `state.rs`.
-/

namespace FundingVaults.LaunchV7

/-- The address of the program. -/
def ID : Pubkey := ⟨[171, 114, 96, 242, 14, 218, 184, 32, 137, 144, 52, 63, 11, 153, 84, 178,
  11, 66, 176, 189, 129, 200, 37, 107, 235, 171, 12, 112, 212, 23, 80, 204], rfl⟩

def AnnualRule.serialize (r : AnnualRule) : Bytes :=
  U64.toLe r.startPeriod ++ U64.toLe r.endPeriod ++ U64.toLe r.founderBasis ++
    U64.toLe r.treasuryBasis ++ U64.toLe r.sharedCap ++ U16.toLe r.releaseBps ++ r.sourceHash.bytes

def serializeKeys (keys : Vector Pubkey 3) : Bytes :=
  keys.toList.flatMap Bytes32.bytes

def LaunchConfig.serialize (c : LaunchConfig) : Bytes :=
  I64.toLe c.t0 ++ U64.toLe c.founderAmount ++ U64.toLe c.treasuryAmount ++
    U64.toLe c.founderPeriodCap ++ U64.toLe c.treasuryPeriodCap ++ U64.toLe c.sharedHardCap ++
    I64.toLe c.maxReportAge ++ c.annualRules.toList.flatMap AnnualRule.serialize ++
    serializeKeys c.recoveryKeys ++ serializeKeys c.founderRecoveryKeys ++
    serializeKeys c.treasuryRecoveryKeys

def identity (chain : Chain) (creator mint founder treasury oracle : Pubkey) (specHash : Bytes32)
    (config : LaunchConfig) : Bytes32 :=
  chain.sha256 (ascii "k4v-launch-policy-v7-test-profile-1" ++ ID.bytes ++ creator.bytes ++
    mint.bytes ++ founder.bytes ++ treasury.bytes ++ oracle.bytes ++ specHash.bytes ++
    I64.toLe CLIFF ++ I64.toLe PERIOD ++ U64.toLe RATE_DIVISOR ++ U16.toLe MAX_RELEASE_BPS ++
    I64.toLe CHANGE_NOTICE ++ [2] ++ I64.toLe WITHDRAWAL_EXECUTION_WINDOW ++
    I64.toLe MAX_SUBMISSION_WINDOW ++ config.serialize)

end FundingVaults.LaunchV7
