import ProseScore.Main
import ProseScore.Proofs.Markup.Faults
import ProseScore.Proofs.Markup.Parts
import ProseScore.Proofs.Paragraph.Inheritance
import ProseScore.Proofs.Score.Sharing
import ProseScore.Proofs.Session.Agreement
import ProseScore.Proofs.Session.Answers
import ProseScore.Proofs.Session.Dispatch
import ProseScore.Proofs.Session.Endless
import ProseScore.Proofs.Session.Playback
import ProseScore.Proofs.Session.Preview
import ProseScore.Proofs.Session.Settled
import ProseScore.Proofs.Timer.Run
import ProseScore.Scalar.Exact
import ProseScore.Session.Command
import ProseScore.Session.Keystroke
import ProseScore.Proofs.Session.Slices
import ProseScore.Proofs.Session.Typing
import ProseScore.Proofs.Session.Seamless
import ProseScore.Proofs.Sound.Drawn
import ProseScore.Proofs.Session.Performed
import ProseScore.Proofs.Session.Voices
import ProseScore.Proofs.Session.Independence
import ProseScore.Proofs.Token.Words
import ProseScore.Proofs.Session.Accounts
import ProseScore.Proofs.Session.Seed
import ProseScore.Proofs.Session.Reset
import ProseScore.Proofs.Region.Matching
import ProseScore.Proofs.Region.Unmatched
import ProseScore.Proofs.Score.Muted
import ProseScore.Proofs.Token.Excluded
import ProseScore.Proofs.Sound.Range
import ProseScore.Proofs.Sound.Timeline
import ProseScore.Proofs.Session.Live
import ProseScore.Proofs.Binary64.Scaling
import ProseScore.Proofs.Style.Spellings
