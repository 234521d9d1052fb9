import Pwm.Core.State
import Pwm.Lib.Bincode

/-!
# The serialised state

The bytes whose hash is the state root of a block. Several account fields are
left out when they have their default value, and some amounts are written as
decimal strings.
-/

namespace Pwm

open BitVec Bincode

def idBytes (id : Bytes32) : List U8 := id.beBytes 32

def stringBytes (s : String) : List U8 := seqBytes (fun b => [b]) (strBytes s)

def PolicyKind.bytes : PolicyKind → List U8
  | .routingSameDomainOnly => variantBytes 0
  | .routingEmergencyRedirect => variantBytes 1
  | .senderFilter => variantBytes 2
  | .defaultBehavior => variantBytes 3
  | .cosignRequired => variantBytes 4

def DeferredPolicyEntry.bytes (row : DeferredPolicyEntry) : List U8 :=
  row.policy.bytes ++ row.activateAtHeight.leBytes 8

def Account.bytes (a : Account) : List U8 :=
  idBytes a.signingPubkey ++ a.derivationIndex.leBytes 4 ++ a.balancePwm.leBytes 16 ++
    a.stakedPwmRaw.leBytes 16 ++ a.storedMarks.leBytes 4 ++ a.marksLastBlock.leBytes 8 ++
    boolByte a.initialized ++ a.index.leBytes 4 ++ a.flags.leBytes 4 ++ a.nonce.leBytes 8 ++
    optionUnlessNone idBytes a.rescueAddress ++
    omitIf (a.activePolicies = 0#16) (a.activePolicies.leBytes 2) ++
    omitIf (a.dormantPolicies = 0#16) (a.dormantPolicies.leBytes 2) ++
    omitIf (a.deferredPolicies = []) (seqBytes DeferredPolicyEntry.bytes a.deferredPolicies) ++
    optionUnlessNone (fun phase => phase.leBytes 1) a.ipv4ClaimedPhase ++
    omitIf (a.finalized = false) (boolByte a.finalized) ++
    omitIf (a.ownerKind = "") (stringBytes a.ownerKind) ++
    omitIf (a.ownerDisplayName = "") (stringBytes a.ownerDisplayName) ++
    omitIf (a.ownerCountryHint = "") (stringBytes a.ownerCountryHint) ++
    optionUnlessNone idBytes a.companyMetadataCommitment ++
    optionUnlessNone stringBytes a.externalVerificationRef ++
    optionUnlessNone (fun lo => lo.leBytes 1) a.requestedDomainLo

def ExportProvenance.bytes (p : ExportProvenance) : List U8 :=
  idBytes p.toId ++ p.targetDomain.leBytes 2 ++ decimalBytes p.amount

def CrossShardLockState.bytes : CrossShardLockState → List U8
  | .locked => variantBytes 0
  | .released => variantBytes 1
  | .refunded => variantBytes 2

def CrossShardLock.bytes (l : CrossShardLock) : List U8 :=
  idBytes l.exportId ++ idBytes l.sender ++ decimalBytes l.amountPwm ++
    l.targetDomain.leBytes 2 ++ idBytes l.refundAccount ++ l.lockHeight.leBytes 8 ++
    l.unlockHeight.leBytes 8 ++ l.state.bytes

/-- The serialised evidence type: a variant index, then its argument. -/
def EvidenceType.bytes : EvidenceType → List U8
  | .duplicateVote => variantBytes 0
  | .invalidAttestation => variantBytes 1
  | .unavailableProposer => variantBytes 2
  | .customStub code => variantBytes 3 ++ code.leBytes 2

def EvidenceRecord.bytes (r : EvidenceRecord) : List U8 :=
  idBytes r.recordId ++ r.height.leBytes 8 ++ r.offenderValidatorIdx.leBytes 2 ++
    r.evidenceType.bytes ++ idBytes r.payloadHash ++ optionBytes idBytes r.reporter

def PendingConservationTransfer.bytes (r : PendingConservationTransfer) : List U8 :=
  idBytes r.sender ++ idBytes r.recipient ++ decimalBytes r.amountPwm ++ r.feePwm.leBytes 8 ++
    r.nonce.leBytes 8 ++ r.enqueueHeight.leBytes 8 ++ r.executeAtHeight.leBytes 8 ++
    idBytes r.txHash

def State.bytes (st : State) : List U8 :=
  seqBytes (fun p => idBytes p.1 ++ p.2.bytes) st.accounts.toList ++ st.feePool.leBytes 16 ++
    seqBytes idBytes st.importedSet.toList ++
    seqBytes (fun p => idBytes p.1 ++ p.2.bytes) st.exportedRegistry.toList ++
    st.epochCounter.leBytes 8 ++ seqBytes (fun idx => idx.leBytes 2) st.activeValidatorIndices ++
    seqBytes CrossShardLock.bytes st.crossShardLocks ++
    seqBytes EvidenceRecord.bytes st.evidenceLog ++
    seqBytes PendingConservationTransfer.bytes st.pendingConservation

/-- The state root. -/
def digest (C : Crypto) (st : State) : Bytes32 :=
  C.blake3 st.bytes

end Pwm
