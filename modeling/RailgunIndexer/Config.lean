import RailgunIndexer.Store

/-!
# The configuration of the chain indexer

The settings of the chain-indexed datasets and their validation. Durations are milliseconds.
-/

namespace RailgunIndexer

structure PublicTxidCompatibilityOmission where
  blockNumber : UInt64
  transactionHash : Bytes32
  railgunTransactionIndex : UInt64
  deriving DecidableEq

structure ChainIndexedChainConfig where
  chainId : Nat
  railgunContract : Address
  rpcUrl : String
  wsUrl : Option String := none
  archiveRpcUrl : String
  startBlock : UInt64
  v2StartBlock : UInt64
  legacyShieldBlock : UInt64
  actionStartBlock : Option UInt64 := none
  datasets : List DatasetKind := DatasetKind.all
  publicTxidCompatibilityOmissions : List PublicTxidCompatibilityOmission := []
  deriving DecidableEq

structure ChainIndexedDatasetConfig where
  enabled : Bool
  chains : List ChainIndexedChainConfig
  indexInterval : Nat
  tailSafetyInterval : Nat
  tailSafetyBlockSpan : Nat
  publishInterval : Nat
  maxBlocksPerBatch : Nat
  safeConfirmations : Nat
  publicTxidChunkRowLimit : Nat
  commitmentChunkRowLimit : Nat
  deriving DecidableEq

inductive ConfigValidationError where
  | unknownChainId (chainId : Nat)
  | emptyChainIndexedChains
  | zeroChainIndexedIndexInterval
  | zeroChainIndexedTailSafetyInterval
  | zeroChainIndexedTailSafetyBlockSpan
  | zeroChainIndexedPublishInterval
  | zeroChainIndexedMaxBlocksPerBatch
  | zeroPublicTxidChunkRowLimit
  | zeroCommitmentChunkRowLimit
  | emptyChainIndexedRpcUrl (chainId : Nat)
  | emptyChainIndexedWsUrl (chainId : Nat)
  | emptyChainIndexedArchiveRpcUrl (chainId : Nat)
  | zeroChainIndexedRailgunContract (chainId : Nat)
  | emptyChainIndexedDatasets (chainId : Nat)
  | chainIndexedActionStartBeforeStartBlock (chainId : Nat) (actionStartBlock startBlock : UInt64)
  | duplicateChainIndexedChain (chainId : Nat) (railgunContract : Address)
  | duplicatePublicTxidCompatibilityOmission (chainId : Nat)
      (omission : PublicTxidCompatibilityOmission)
  deriving DecidableEq

def supportedChainIds : List Nat := [1, 56, 137, 8453, 42161, 11155111]

def isWhiteSpace (char : Char) : Bool :=
  let code := char.toNat
  (9 ≤ code && code ≤ 13) || (0x2000 ≤ code && code ≤ 0x200A)
    || [0x20, 0x85, 0xA0, 0x1680, 0x2028, 0x2029, 0x202F, 0x205F, 0x3000].contains code

def isBlank (url : String) : Bool := url.toList.all isWhiteSpace

def reject (condition : Bool) (error : ConfigValidationError) : Except ConfigValidationError Unit :=
  if condition then .error error else .ok ()

def validateOmission (chainId : Nat) (seen : List PublicTxidCompatibilityOmission)
    (omission : PublicTxidCompatibilityOmission) :
    Except ConfigValidationError (List PublicTxidCompatibilityOmission) := do
  reject (seen.contains omission) (.duplicatePublicTxidCompatibilityOmission chainId omission)
  pure (omission :: seen)

def validateActionStartBlock (chain : ChainIndexedChainConfig) : Except ConfigValidationError Unit :=
  match chain.actionStartBlock with
  | some actionStartBlock =>
      reject (actionStartBlock < chain.startBlock)
        (.chainIndexedActionStartBeforeStartBlock chain.chainId actionStartBlock chain.startBlock)
  | none => .ok ()

def validateChain (seen : List (Nat × Address)) (chain : ChainIndexedChainConfig) :
    Except ConfigValidationError (List (Nat × Address)) := do
  reject (!supportedChainIds.contains chain.chainId) (.unknownChainId chain.chainId)
  reject (isBlank chain.rpcUrl) (.emptyChainIndexedRpcUrl chain.chainId)
  reject (chain.wsUrl.any isBlank) (.emptyChainIndexedWsUrl chain.chainId)
  reject (isBlank chain.archiveRpcUrl) (.emptyChainIndexedArchiveRpcUrl chain.chainId)
  reject (chain.railgunContract == 0) (.zeroChainIndexedRailgunContract chain.chainId)
  validateActionStartBlock chain
  reject chain.datasets.isEmpty (.emptyChainIndexedDatasets chain.chainId)
  reject (seen.contains (chain.chainId, chain.railgunContract))
    (.duplicateChainIndexedChain chain.chainId chain.railgunContract)
  let _ ← chain.publicTxidCompatibilityOmissions.foldlM (validateOmission chain.chainId) []
  pure ((chain.chainId, chain.railgunContract) :: seen)

def validateChainIndexed (config : ChainIndexedDatasetConfig) : Except ConfigValidationError Unit :=
  if !config.enabled then
    .ok ()
  else do
    reject config.chains.isEmpty .emptyChainIndexedChains
    reject (config.indexInterval == 0) .zeroChainIndexedIndexInterval
    reject (config.tailSafetyInterval == 0) .zeroChainIndexedTailSafetyInterval
    reject (config.tailSafetyBlockSpan == 0) .zeroChainIndexedTailSafetyBlockSpan
    reject (config.publishInterval == 0) .zeroChainIndexedPublishInterval
    reject (config.maxBlocksPerBatch == 0) .zeroChainIndexedMaxBlocksPerBatch
    reject (config.publicTxidChunkRowLimit == 0) .zeroPublicTxidChunkRowLimit
    reject (config.commitmentChunkRowLimit == 0) .zeroCommitmentChunkRowLimit
    let _ ← config.chains.foldlM validateChain []

structure ChainRuntime where
  config : ChainIndexedDatasetConfig
  chain : ChainIndexedChainConfig
  enabled : config.enabled = true
  valid : validateChainIndexed config = .ok ()
  configured : chain ∈ config.chains

def ChainRuntime.key (runtime : ChainRuntime) : ContractKey where
  chainId := runtime.chain.chainId
  railgunContract := runtime.chain.railgunContract

/-! ### Settings of one chain -/

def toySettings (startBlock : UInt64) : ChainIndexedChainConfig where
  chainId := 1
  railgunContract := 1
  rpcUrl := "rpc"
  archiveRpcUrl := "archive"
  startBlock
  v2StartBlock := 0
  legacyShieldBlock := 0

def toyConfig (startBlock : UInt64) (window : Nat) : ChainIndexedDatasetConfig where
  enabled := true
  chains := [toySettings startBlock]
  indexInterval := 1
  tailSafetyInterval := 1
  tailSafetyBlockSpan := 1
  publishInterval := 1
  maxBlocksPerBatch := window + 1
  safeConfirmations := 0
  publicTxidChunkRowLimit := 1
  commitmentChunkRowLimit := 1

end RailgunIndexer
