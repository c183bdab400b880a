import Muchiwachi.Basic
import Muchiwachi.Lib.Run
import Muchiwachi.Lib.Records
import Muchiwachi.Lib.BoundedLog
import Muchiwachi.Lib.TableFsm
import Muchiwachi.Trace
import Muchiwachi.Store
import Muchiwachi.StoreSpec
import Muchiwachi.Adverts
import Muchiwachi.GroupFsm
import Muchiwachi.Reports
import Muchiwachi.GroupSpec
import Muchiwachi.PeerList
import Muchiwachi.Display
import Muchiwachi.MainFsm
import Muchiwachi.Create
import Muchiwachi.MainStep
import Muchiwachi.Control
import Muchiwachi.Handheld
import Muchiwachi.Power
import Muchiwachi.Config
import Muchiwachi.FirstPush
import Muchiwachi.ConfigGate
import Muchiwachi.SavedStore
import Muchiwachi.Lib.Broadcast
import Muchiwachi.Consent
import Muchiwachi.Walk
import Muchiwachi.Received
import Muchiwachi.RoundTrip
import Muchiwachi.Lib.MemoryLcd
import Muchiwachi.Lcd
import Muchiwachi.Lib.WrappedClock
import Muchiwachi.Expiry
import Muchiwachi.MessageText
import Muchiwachi.Radar
import Muchiwachi.Session
import Muchiwachi.Lib.Signal
import Muchiwachi.Panel
import Muchiwachi.Redraw
import Muchiwachi.Wake
import Muchiwachi.FullStore
import Muchiwachi.FailedSave
import Muchiwachi.Lib.Footprint
import Muchiwachi.StoreFootprint
import Muchiwachi.StoreBounds
import Muchiwachi.Lib.Raster
import Muchiwachi.Pixels
import Muchiwachi.Paint
import Muchiwachi.Shapes
import Muchiwachi.Lib.Digital
import Muchiwachi.Lines
import Muchiwachi.Discs
import Muchiwachi.FontData
import Muchiwachi.Glyphs
import Muchiwachi.Pictures
import Muchiwachi.Faces
import Muchiwachi.Screens
import Muchiwachi.Lib.SpiBus
import Muchiwachi.Board
import Muchiwachi.Gestures
import Muchiwachi.Device
import Muchiwachi.DeviceStep
import Muchiwachi.Outline
import Muchiwachi.DeviceRuns
import Muchiwachi.Peers
import Muchiwachi.Phone
import Muchiwachi.Outline
