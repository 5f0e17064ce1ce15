import RailgunIndexer.Proof.LogFilter
import RailgunIndexer.Proof.Ingest
import RailgunIndexer.Proof.ActionConservation
import RailgunIndexer.Proof.CallForest
import RailgunIndexer.Proof.OutputMatch
import RailgunIndexer.Proof.UnshieldPreimage
import RailgunIndexer.Proof.RewindReplay
import RailgunIndexer.Proof.Reorg
import RailgunIndexer.Proof.Watermark
import RailgunIndexer.Proof.PublicTxidCatalog
import RailgunIndexer.Proof.PoiGraph
import RailgunIndexer.Proof.ManifestSequence
import RailgunIndexer.Proof.PinSafety
import RailgunIndexer.Proof.Reconciliation
import RailgunIndexer.Proof.RetentionInterval
import RailgunIndexer.Proof.ActiveGraph
import RailgunIndexer.Proof.MerkleCheckpoint
import RailgunIndexer.Proof.TraceJson
import RailgunIndexer.Proof.TxidParity
import RailgunIndexer.Proof.LegacyOutputs
import RailgunIndexer.Proof.TreeCheckpoint
import RailgunIndexer.Proof.CommitmentCatalog
import RailgunIndexer.Proof.WalletScanCatalog
import RailgunIndexer.Proof.PoiStore
import RailgunIndexer.Proof.BridgeRetention
import RailgunIndexer.Proof.Ipfs
import RailgunIndexer.Proof.IndexingLoop
import RailgunIndexer.Proof.Scrape
import RailgunIndexer.Proof.CheckpointChunks
import RailgunIndexer.Proof.PublicTxidPayload
import RailgunIndexer.Proof.SquidParity
import RailgunIndexer.Proof.ScrapedTip
import RailgunIndexer.Proof.ScrapeStart
import RailgunIndexer.Proof.Ipns
import RailgunIndexer.Proof.TreePosition
import RailgunIndexer.Proof.TimestampBackfill
import RailgunIndexer.Proof.PinOwnership
import RailgunIndexer.Proof.PinReuse
