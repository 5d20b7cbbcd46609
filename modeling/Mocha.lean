import Mocha.Transition
import Mocha.Ring
import Mocha.SensorEventQueue
import Mocha.Barrier
import Mocha.Multihal
import Mocha.MultihalMoves
import Mocha.SensorDelivery
import Mocha.SensorFlush
import Mocha.SensorWakeup
import Mocha.AudioControls
import Mocha.Mask
import Mocha.AudioParser
import Mocha.AudioParsed
import Mocha.AudioWalk
import Mocha.AudioRoutes
import Mocha.AudioUseCount
import Mocha.Camera3
import Mocha.CameraTraffic
import Mocha.CameraBuffers
import Mocha.CameraStreams
import Mocha.CameraConfigure
import Mocha.CameraInflight
import Mocha.CameraGeometry
import Mocha.CameraRegistration
import Mocha.CameraResults
import Mocha.CameraVendor
import Mocha.CameraSettings
import Mocha.MultihalModule
import Mocha.SensorOrigins
import Mocha.SensorRouting
import Mocha.AudioContents
import Mocha.AudioDocument
import Mocha.AudioPlacement
import Mocha.AudioReferences
import Mocha.VoiceTrigger
import Mocha.AudioOutput
import Mocha.AudioInput
import Mocha.InputHandles
import Mocha.InputReferences
import Mocha.InputSources
import Mocha.CompressWorker
import Mocha.AudioRelease
import Mocha.SensorRegion
import Mocha.SensorFifo
import Mocha.InputResampler
import Mocha.CameraCharacteristics
import Mocha.CameraRequests
import Mocha.Rotation
import Mocha.SensorOpening
import Mocha.SensorRotation
import Mocha.AudioParents
import Mocha.AudioStack
import Mocha.AudioNumbers
import Mocha.AudioVolume
import Mocha.AudioArrays
import Mocha.AudioRedirects
import Mocha.AudioTiming
import Mocha.CompressPlayer
import Mocha.CompressDevices
import Mocha.CompressPlayback
import Mocha.PcmRing
import Mocha.PcmDevice
import Mocha.PcmTransfers
import Mocha.PcmClients
import Mocha.PcmOutput
import Mocha.CondVar
import Mocha.CameraParameters
import Mocha.CameraParameters2
import Mocha.CameraSizes
import Mocha.MixerControls
import Mocha.CameraModule
