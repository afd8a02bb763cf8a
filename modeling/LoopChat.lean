import LoopChat.ChatDelivery
import LoopChat.ChatIntegrity
import LoopChat.ChatAttribution
import LoopChat.CommunityListExact
import LoopChat.LoginGate
import LoopChat.LoginDismissal
import LoopChat.ProfileLoads
import LoopChat.AccountAgreement
import LoopChat.EmailAgreement
import LoopChat.ProfileEdits
import LoopChat.ProfileLifetime
import LoopChat.DeliveryQueues
import LoopChat.ConversationSystem
import LoopChat.ConversationOrder
import LoopChat.ChatTwins
import LoopChat.RefusedSends
import LoopChat.DraftWrites
import LoopChat.ComposerDrafts
import LoopChat.CommunityRows
import LoopChat.OwnAccounts
import LoopChat.ChatRows
import LoopChat.PasswordPrivacy
import LoopChat.LoginCells
import LoopChat.DatabaseIntegrity
import LoopChat.DeviceRest
import LoopChat.TextOrigins
import LoopChat.ListRefinement
import LoopChat.AlertReports
