import Lightshow.Bulb.Shape
import Lightshow.Config.Shape
import Lightshow.Hue.Bridge
import Lightshow.Main
import Lightshow.Playback.Rehearsal
import Lightshow.Proofs.Abandoning
import Lightshow.Proofs.Colouring
import Lightshow.Proofs.Destinations
import Lightshow.Proofs.Elements
import Lightshow.Proofs.Enclosure
import Lightshow.Proofs.Faultless
import Lightshow.Proofs.Forecast
import Lightshow.Proofs.Handles
import Lightshow.Proofs.Lines
import Lightshow.Proofs.Loading
import Lightshow.Proofs.Omissions
import Lightshow.Proofs.Outages
import Lightshow.Proofs.Overriding
import Lightshow.Proofs.Pacing
import Lightshow.Proofs.Perturbing
import Lightshow.Proofs.Reloading
import Lightshow.Proofs.Remarks
import Lightshow.Proofs.Replay
import Lightshow.Proofs.Resetting
import Lightshow.Proofs.Separator
import Lightshow.Proofs.Spelling
import Lightshow.Proofs.Stopping
import Lightshow.Proofs.Transcripts
import Lightshow.Proofs.Waiting
import Lightshow.Proofs.Widths
