import EightEen.Js.Text
import EightEen.Js.Units
import EightEen.Js.Counts
import EightEen.Js.Platform
import EightEen.Js.Keys
import EightEen.Js.Expiring
import EightEen.Js.View
import EightEen.Js.Heap
import EightEen.Transition
import EightEen.Scripts
import EightEen.Answering
import EightEen.Verdict
import EightEen.Evidence
import EightEen.Namespaces
import EightEen.Challenge
import EightEen.Verifier
import EightEen.Check
import EightEen.NonceStore
import EightEen.SpentSet
import EightEen.Replicas
import EightEen.Replay
import EightEen.Visitors
import EightEen.Log
import EightEen.Lines
import EightEen.Service
import EightEen.Readiness
import EightEen.Audit
import EightEen.Pipes
import EightEen.Restart
import EightEen.Stops
import EightEen.Posting
import EightEen.Answers
import EightEen.Gate
import EightEen.Boot
import EightEen.Launch
import EightEen.Cleanup
import EightEen.Limiter
import EightEen.Body
import EightEen.BodyReader
import EightEen.Handler
import EightEen.Windows
import EightEen.Shedding
import EightEen.Serving
import EightEen.Concurrent
import EightEen.FairShare
import EightEen.Mounted
import EightEen.Cbor
import EightEen.Mint
import EightEen.Minted
import EightEen.Frames
import EightEen.Signed
import EightEen.Files
import EightEen.Pinned
import EightEen.Installers
import EightEen.Provision
import EightEen.Provisioned
import EightEen.Pins
import EightEen.Tampering
import EightEen.Binary
import EightEen.Fixtures
import EightEen.OneRun
import EightEen.Civil
import EightEen.Clocks
import EightEen.Scenario
import EightEen.Unlinkable
import EightEen.Vouched
import EightEen.Runs
import EightEen.Detector
import EightEen.Fleet
import EightEen.Releases
