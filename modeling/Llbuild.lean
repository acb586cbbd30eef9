import Llbuild.BuildSystem.Yaml
import Llbuild.BuildSystem.StringRef
import Llbuild.BuildSystem.Delegate
import Llbuild.BuildSystem.BuildFileImpl
import Llbuild.BuildSystem.Parse
import Llbuild.BuildSystem.Load
import Llbuild.BuildSystem.Run
import Llbuild.BuildSystem.Invariant
import Llbuild.BuildSystem.Steps
import Llbuild.BuildSystem.Sound
import Llbuild.BuildSystem.Errors
import Llbuild.BuildSystem.Registry
import Llbuild.BuildSystem.Schema
import Llbuild.BuildSystem.Accept
import Llbuild.BuildSystem.Client
import Llbuild.BuildSystem.Calls
import Llbuild.BuildSystem.Phases
import Llbuild.BuildSystem.Tasks
import Llbuild.BuildSystem.Contents
import Llbuild.BuildSystem.Implicit
import Llbuild.BuildSystem.Replay
import Llbuild.BuildSystem.Resolution
import Llbuild.BuildSystem.Causality
import Llbuild.BuildSystem.Configured
