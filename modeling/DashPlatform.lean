import DashPlatform.Lib.Hex
import DashPlatform.Lib.PartialMap
import DashPlatform.Merk.Basic
import DashPlatform.BlockExecution.Query
import DashPlatform.Document.MongoDbIndices
import DashPlatform.BlockExecution.Retry
import DashPlatform.Merk.PlainMap
import DashPlatform.Dpp.Timestamps
import DashPlatform.Dpp.Duplicates
import DashPlatform.Dpp.UnchangedReplacement
import DashPlatform.Dpp.StateTransition
import DashPlatform.Abci.CreatedDataContracts
import DashPlatform.Abci.PublicKeyIndex
import DashPlatform.Document.UniquenessQuery
import DashPlatform.AbciServer.ServedRequests
import DashPlatform.Wallet.SerialQueue
import DashPlatform.Wallet.AddressPaths
import DashPlatform.Wallet.UnspentOutputs
import DashPlatform.Wallet.Restart
import DashPlatform.Wallet.SyncedIdentities
import DashPlatform.Wallet.SoundSelection
import DashPlatform.Dapi.SpentOutputs
import DashPlatform.Dapi.MatchedData
import DashPlatform.Dapi.InstantLocks
import DashPlatform.Dapi.EmitterRemoved
import DashPlatform.Dapi.ProvableTransaction
import DashPlatform.Wire.RoundTrip
import DashPlatform.Wire.DocumentRoundTrip
import DashPlatform.Dashmate.MigratedFiles
import DashPlatform.DapiClient.MasternodeListUpdates
import DashPlatform.Dpp.IndexedValues
import DashPlatform.Dpp.MaxDepth
import DashPlatform.Document.SortingIndices
import DashPlatform.Document.KeptConditions
import DashPlatform.Document.MirroredBatches
import DashPlatform.Abci.CreditsAccounted
import DashPlatform.Abci.SignedChanges
import DashPlatform.Abci.SystemDocuments
import DashPlatform.Document.Paging
import DashPlatform.Sdk.EditedDocuments
import DashPlatform.Sdk.RegisteredNames
import DashPlatform.AbciServer.RequestLimits
import DashPlatform.Wallet.UnusedAddresses
import DashPlatform.Wallet.FewestOutputs
import DashPlatform.Wallet.SignedSize
import DashPlatform.Wallet.SyncedBlocks
import DashPlatform.Wallet.TransactionMetadata
import DashPlatform.Dpns.Preorders
import DashPlatform.Core.MasternodeListChain
import DashPlatform.Wallet.BlockHeaders
import DashPlatform.Wallet.TransactionTypes
import DashPlatform.Dapi.ScannedHistory
import DashPlatform.Dapi.WsClient
import DashPlatform.DapiClient.RequestRetries
import DashPlatform.Dashmate.MigratedImages
import DashPlatform.BlockExecution.CreditsDistributionPool
