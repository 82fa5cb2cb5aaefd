import MailServer.Closing
import MailServer.Config.Document
import MailServer.Imap.Connection
import MailServer.Main
import MailServer.Proofs.Agreement
import MailServer.Proofs.Body
import MailServer.Proofs.Concurrent
import MailServer.Proofs.Creating
import MailServer.Proofs.Defaults
import MailServer.Proofs.FailedCall
import MailServer.Proofs.FailedCommand
import MailServer.Proofs.Hangup
import MailServer.Proofs.Reports
import MailServer.Proofs.Utf8
import MailServer.Proofs.Written
import MailServer.Proofs.Answers
import MailServer.Proofs.Forest
import MailServer.Proofs.Reference
import MailServer.Proofs.Readback
import MailServer.Proofs.Growth
import MailServer.Proofs.Fetching
import MailServer.Proofs.Spelling
import MailServer.Proofs.Subpaths
import MailServer.Proofs.LastWrite
import MailServer.Proofs.Preflight
import MailServer.Proofs.Histories
import MailServer.Proofs.Pruning
import MailServer.Proofs.Closed
import MailServer.Proofs.Registered
import MailServer.Proofs.Asked
import MailServer.Proofs.Stream
import MailServer.Proofs.Ancestry
import MailServer.Proofs.Escaping
import MailServer.Proofs.Document
