import Telegravim.Foundation.OrdMap
import Telegravim.Foundation.Text
import Telegravim.Foundation.Base64
import Telegravim.Foundation.Utf8
import Telegravim.Foundation.Json
import Telegravim.Foundation.MapCodec
import Telegravim.Foundation.Trace
import Telegravim.Foundation.FlatSet
import Telegravim.E2E.State
import Telegravim.E2E.Storage
import Telegravim.E2E.Valid
import Telegravim.E2E.Chat
import Telegravim.E2E.Envelope
import Telegravim.E2E.Ledger
import Telegravim.E2E.Refine
import Telegravim.E2E.Receive
import Telegravim.E2E.Run
import Telegravim.E2E.Readiness
import Telegravim.E2E.Handshake
import Telegravim.E2E.Android
import Telegravim.E2E.Agreement
import Telegravim.E2E.AgreementReceive
import Telegravim.Ids.Slices
import Telegravim.Ids.SparseIdsList
import Telegravim.Ids.MessagesList
import Telegravim.Ids.SliceBuilder
import Telegravim.Foundation.JsonText
import Telegravim.LocalData.Archives
import Telegravim.LocalData.Conflicts
import Telegravim.LocalData.Disclosure
import Telegravim.LocalData.KeepBoth
import Telegravim.LocalData.Retention
import Telegravim.LocalData.Restore
import Telegravim.Updates.PtsWaiter
import Telegravim.Updates.InOrder
import Telegravim.Update.Run
import Telegravim.PinnedItems.Run
import Telegravim.Mtproto.Lossless
import Telegravim.WebProxy.Run
import Telegravim.ChatRequests.Run
import Telegravim.Replies.InFlight
import Telegravim.AndroidUpdates.Run
import Telegravim.OfflineSettings.Publish
import Telegravim.VimKeymap.HintLabels
import Telegravim.VimKeymap.MessageHintLabels
import Telegravim.VimKeymap.HintBadges
import Telegravim.QuickReplies.Expansion
import Telegravim.VimKeymap.ComposeModes
import Telegravim.LocalData.TransferChunks
import Telegravim.WebProxy.FrameChunks
import Telegravim.Ids.MergedSlice
import Telegravim.PinnedItems.Items
import Telegravim.RichPage.SimpleText
import Telegravim.RichPage.TablePlacement
import Telegravim.Mtproto.TcpStream
import Telegravim.DcOptions.Restart
import Telegravim.Passkey.Digits
import Telegravim.Update.BuildEnvelope
import Telegravim.Passkey.PostHandshake
import Telegravim.Downloads.Queue
import Telegravim.LocalData.NativeTags
import Telegravim.UserPhotos.List
import Telegravim.RichPage.OrderedLists
import Telegravim.Passkey.Tunnel
import Telegravim.Passkey.TunnelMessages
import Telegravim.WebProxy.LocalMessages
import Telegravim.Mtproto.TlsStream
import Telegravim.FolderArchive.Names
import Telegravim.LocalData.SharedDirectory
import Telegravim.Streaming.SliceCache
